import Superiority.Library.Map
import Superiority.Wc3.ChatState

/-!
# Batches of friend updates

A batch is applied one update at a time while it is still being read, so a batch that cannot be read
to its end leaves the updates before the bad one behind, under the old revision.

* **`applyFriendUpdates_append`** – the loop applies the updates up to the first item that cannot be
  read, and says of a batch that it has read whether the friends have changed.
* **`leaves_iff`** – some updates leave friends and names as they were exactly when the last update of
  each account says what is held of it already.
* **`tracks_iff`** – so the revision tracks the friends exactly when the updates before the bad one
  are such.
-/

namespace Superiority.Wc3

open Std Stateful
open Wire (Field itemsOf)

/-- What an item of a batch holds: an update, or a field that is passed over. -/
def readUpdate (item : Except Error Field) : Except Error (Option FriendUpdate) := do
  match ← ChatState.batchUpdate item "BatchFriendUpdated contains a non-message update" with
  | none => return none
  | some update =>
    let update ← parseFriendUpdate update
    return some update

namespace FriendUpdate

def accountId : FriendUpdate → UInt64
  | .upsert friend => friend.accountId
  | .remove accountId => accountId

/-- The friend that an update leaves. -/
def friend : FriendUpdate → Option ChatFriend
  | .upsert friend => some friend
  | .remove _ => none

end FriendUpdate

namespace ChatState

/-! ## The loop -/

/-- The state after one update, the revision apart. -/
def afterUpdate (chat : ChatState) : FriendUpdate → ChatState
  | .remove accountId => { chat with friends := chat.friends.erase accountId }
  | .upsert friend => { chat with
      friends := chat.friends.insert friend.accountId friend
      peerNames := chat.peerNames.insert friend.accountId friend.name }

def afterUpdates (chat : ChatState) (updates : List FriendUpdate) : ChatState :=
  updates.foldl afterUpdate chat

/-- Whether one of the updates changes the friends it meets. -/
def changesFriends : ChatState → List FriendUpdate → Bool
  | _, [] => false
  | chat, update :: updates =>
    decide (chat.friends[update.accountId]? ≠ update.friend) ||
      changesFriends (chat.afterUpdate update) updates

/-- The updates that can be read. -/
def updatesOf (items : List (Except Error Field)) : List FriendUpdate :=
  items.filterMap fun item => (readUpdate item).toOption.join

/-- Every item can be read. -/
def Readable (items : List (Except Error Field)) : Prop :=
  ∀ item ∈ items, ∃ update, readUpdate item = .ok update

variable {chat : ChatState}

theorem applyFriendUpdate_eq (changed : Bool) (update : FriendUpdate) (chat : ChatState) :
    applyFriendUpdate changed update chat =
      (.ok (changed || decide (chat.friends[update.accountId]? ≠ update.friend)),
        chat.afterUpdate update) := by
  cases update with
  | remove accountId =>
    have hheld : decide (chat.friends[(FriendUpdate.remove accountId).accountId]? ≠
        (FriendUpdate.remove accountId).friend) = chat.friends.contains accountId := by
      rw [ExtTreeMap.contains_eq_isSome_getElem?, FriendUpdate.accountId, FriendUpdate.friend]
      cases chat.friends[accountId]? <;> simp
    rw [hheld]
    rfl
  | upsert friend =>
    by_cases hsame : chat.friends[friend.accountId]? = some friend
    · have hinsert : chat.friends.insert friend.accountId friend = chat.friends := by
        refine ExtTreeMap.ext_getElem? fun {account} => ?_
        by_cases haccount : friend.accountId = account
        · rw [← haccount, ExtTreeMap.getElem?_insert_self, hsame]
        · rw [getElem?_insert_of_ne haccount]
      simp [applyFriendUpdate, bind_apply, FriendUpdate.accountId, FriendUpdate.friend, hsame,
        afterUpdate, hinsert]
    · simp [applyFriendUpdate, bind_apply, FriendUpdate.accountId, FriendUpdate.friend, hsame,
        afterUpdate]

/-- **One round of the loop.** -/
theorem applyFriendUpdates_cons (changed : Bool) (item : Except Error Field)
    (items : List (Except Error Field)) (chat : ChatState) :
    applyFriendUpdates changed (item :: items) chat =
      match readUpdate item with
      | .error error => (.error error, chat)
      | .ok none => applyFriendUpdates changed items chat
      | .ok (some update) =>
        applyFriendUpdates (changed || decide (chat.friends[update.accountId]? ≠ update.friend))
          items (chat.afterUpdate update) := by
  rw [applyFriendUpdates, bind_apply, ofExcept_apply, readUpdate]
  cases batchUpdate item "BatchFriendUpdated contains a non-message update" with
  | error error => rfl
  | ok found =>
    cases found with
    | none => rfl
    | some update =>
      dsimp only
      rw [bind_apply, ofExcept_apply]
      cases hparse : parseFriendUpdate update with
      | error error => simp [bind, Except.bind, hparse]
      | ok update =>
        dsimp only
        rw [bind_of_ok (applyFriendUpdate_eq changed update chat)]
        simp [bind, Except.bind, hparse, pure, Except.pure]

/-- The loop over items that can be read. -/
theorem applyFriendUpdates_append {before : List (Except Error Field)} (h : Readable before)
    (behind : List (Except Error Field)) (changed : Bool) (chat : ChatState) :
    applyFriendUpdates changed (before ++ behind) chat =
      applyFriendUpdates (changed || changesFriends chat (updatesOf before)) behind
        (chat.afterUpdates (updatesOf before)) := by
  induction before generalizing changed chat with
  | nil => simp [updatesOf, changesFriends, afterUpdates]
  | cons item before ih =>
    obtain ⟨update, hread⟩ := h item List.mem_cons_self
    have hbefore : Readable before := fun other hother => h other (List.mem_cons_of_mem _ hother)
    rw [List.cons_append, applyFriendUpdates_cons, hread]
    cases update with
    | none => simpa [updatesOf, hread, Except.toOption] using ih hbefore changed chat
    | some update =>
      have hrest := ih hbefore
        (changed || decide (chat.friends[update.accountId]? ≠ update.friend))
        (chat.afterUpdate update)
      simpa [updatesOf, hread, Except.toOption, changesFriends, afterUpdates, Bool.or_assoc]
        using hrest

/-- Items can all be read, or there is a first that cannot be. -/
theorem readable_or_fails (items : List (Except Error Field)) : Readable items ∨
    ∃ before item behind error, items = before ++ item :: behind ∧ Readable before ∧
      readUpdate item = .error error := by
  induction items with
  | nil => exact .inl fun item h => by cases h
  | cons item items ih =>
    cases hread : readUpdate item with
    | error error => exact .inr ⟨[], item, items, error, rfl, fun _ h => (by cases h), hread⟩
    | ok update =>
      have hcons {items : List (Except Error Field)} (h : Readable items) :
          Readable (item :: items) := by
        intro other hother
        rcases List.mem_cons.1 hother with rfl | hother
        · exact ⟨update, hread⟩
        · exact h other hother
      rcases ih with hall | ⟨before, other, behind, error, rfl, hbefore, hother⟩
      · exact .inl (hcons hall)
      · exact .inr ⟨item :: before, other, behind, error, rfl, hcons hbefore, hother⟩

theorem applyBatch_of_readable {body : List UInt8} (h : Readable (itemsOf body)) :
    applyBatchFriendUpdated body chat =
      (.ok (), { chat.afterUpdates (updatesOf (itemsOf body)) with
        friendsRevision := (chat.afterUpdates (updatesOf (itemsOf body))).friendsRevision +
          if changesFriends chat (updatesOf (itemsOf body)) then 1 else 0 }) := by
  have hloop := applyFriendUpdates_append h [] false chat
  rw [List.append_nil, Bool.false_or] at hloop
  rw [applyBatchFriendUpdated, bind_apply, hloop]
  cases changesFriends chat (updatesOf (itemsOf body)) with
  | true => rfl
  | false => simp [applyFriendUpdates]

theorem applyBatch_of_fails {body : List UInt8} {before behind : List (Except Error Field)}
    {item : Except Error Field} {error : Error} (hsplit : itemsOf body = before ++ item :: behind)
    (hbefore : Readable before) (hitem : readUpdate item = .error error) :
    applyBatchFriendUpdated body chat =
      (.error error, chat.afterUpdates (updatesOf before)) := by
  rw [applyBatchFriendUpdated, bind_apply, hsplit, applyFriendUpdates_append hbefore,
    applyFriendUpdates_cons, hitem]

/-! ## What the updates leave -/

/-- The last of the updates of an account. -/
def lastOf (account : UInt64) (updates : List FriendUpdate) : Option FriendUpdate :=
  updates.reverse.find? (·.accountId = account)

/-- The friends that are upserted. -/
def upserted (updates : List FriendUpdate) : List ChatFriend :=
  updates.filterMap FriendUpdate.friend

def lastUpserted (account : UInt64) (updates : List FriendUpdate) : Option ChatFriend :=
  (upserted updates).reverse.find? (·.accountId = account)

/-- What is held of every account of the updates is what the last of them says already. -/
structure Silent (chat : ChatState) (updates : List FriendUpdate) : Prop where
  friends : ∀ account update, lastOf account updates = some update →
    chat.friends[account]? = update.friend
  names : ∀ account friend, lastUpserted account updates = some friend →
    chat.peerNames[account]? = some friend.name

theorem friends_afterUpdate (chat : ChatState) (update : FriendUpdate) (account : UInt64) :
    (chat.afterUpdate update).friends[account]? =
      if update.accountId = account then update.friend else chat.friends[account]? := by
  cases update with
  | remove accountId =>
    by_cases h : accountId = account
    · subst h
      simp [afterUpdate, FriendUpdate.accountId, FriendUpdate.friend]
    · simp [afterUpdate, FriendUpdate.accountId, h, getElem?_erase_of_ne h]
  | upsert friend =>
    by_cases h : friend.accountId = account
    · subst h
      simp [afterUpdate, FriendUpdate.accountId, FriendUpdate.friend]
    · simp [afterUpdate, FriendUpdate.accountId, h, getElem?_insert_of_ne h]

theorem friends_afterUpdates (chat : ChatState) (updates : List FriendUpdate) (account : UInt64) :
    (chat.afterUpdates updates).friends[account]? =
      match lastOf account updates with
      | some update => update.friend
      | none => chat.friends[account]? := by
  induction updates generalizing chat with
  | nil => rfl
  | cons update updates ih =>
    have hlast : lastOf account (update :: updates) = (lastOf account updates).or
        (if update.accountId = account then some update else none) := by
      rw [lastOf, List.reverse_cons, List.find?_append, lastOf]
      by_cases h : update.accountId = account <;> simp [h]
    rw [afterUpdates, List.foldl_cons, ← afterUpdates, ih, hlast]
    cases lastOf account updates with
    | some last => rfl
    | none =>
      dsimp only
      rw [friends_afterUpdate, Option.none_or]
      by_cases h : update.accountId = account
      · rw [if_pos h, if_pos h]
      · rw [if_neg h, if_neg h]

theorem peerNames_afterUpdates (chat : ChatState) (updates : List FriendUpdate)
    (account : UInt64) :
    (chat.afterUpdates updates).peerNames[account]? =
      match lastUpserted account updates with
      | some friend => some friend.name
      | none => chat.peerNames[account]? := by
  induction updates generalizing chat with
  | nil => rfl
  | cons update updates ih =>
    rw [afterUpdates, List.foldl_cons, ← afterUpdates, ih]
    cases update with
    | remove accountId => rfl
    | upsert friend =>
      have hlast : lastUpserted account (.upsert friend :: updates) =
          (lastUpserted account updates).or
            (if friend.accountId = account then some friend else none) := by
        have hcons : upserted (.upsert friend :: updates) = friend :: upserted updates := rfl
        rw [lastUpserted, hcons, List.reverse_cons, List.find?_append, lastUpserted]
        by_cases h : friend.accountId = account <;> simp [h]
      rw [hlast]
      cases lastUpserted account updates with
      | some last => rfl
      | none =>
        by_cases h : friend.accountId = account
        · subst h
          simp [afterUpdate]
        · simp [afterUpdate, h, getElem?_insert_of_ne h]

/-- **When updates leave nothing behind.** -/
theorem leaves_iff (chat : ChatState) (updates : List FriendUpdate) :
    ((chat.afterUpdates updates).friends = chat.friends ∧
      (chat.afterUpdates updates).peerNames = chat.peerNames) ↔ Silent chat updates := by
  constructor
  · intro h
    obtain ⟨hfriends, hnames⟩ := h
    constructor
    · intro account update hlast
      have hafter := friends_afterUpdates chat updates account
      rwa [hfriends, hlast] at hafter
    · intro account friend hlast
      have hafter := peerNames_afterUpdates chat updates account
      rwa [hnames, hlast] at hafter
  · intro h
    constructor
    · refine ExtTreeMap.ext_getElem? fun {account} => ?_
      rw [friends_afterUpdates]
      cases hlast : lastOf account updates with
      | some update => exact (h.friends account update hlast).symm
      | none => rfl
    · refine ExtTreeMap.ext_getElem? fun {account} => ?_
      rw [peerNames_afterUpdates]
      cases hlast : lastUpserted account updates with
      | some friend => exact (h.names account friend hlast).symm
      | none => rfl

/-- Updates none of which changes the friends leave them. -/
theorem friends_of_not_changes {updates : List FriendUpdate}
    (h : changesFriends chat updates = false) :
    (chat.afterUpdates updates).friends = chat.friends := by
  induction updates generalizing chat with
  | nil => rfl
  | cons update updates ih =>
    rw [changesFriends, Bool.or_eq_false_iff, decide_eq_false_iff_not, Decidable.not_not] at h
    have hsame : (chat.afterUpdate update).friends = chat.friends := by
      refine ExtTreeMap.ext_getElem? fun {account} => ?_
      rw [friends_afterUpdate]
      split_ifs with haccount
      · rw [← haccount, h.1]
      · rfl
    rw [afterUpdates, List.foldl_cons, ← afterUpdates, ih h.2, hsame]

theorem revision_afterUpdates (chat : ChatState) (updates : List FriendUpdate) :
    (chat.afterUpdates updates).friendsRevision = chat.friendsRevision := by
  induction updates generalizing chat with
  | nil => rfl
  | cons update updates ih =>
    rw [afterUpdates, List.foldl_cons, ← afterUpdates, ih]
    cases update <;> rfl

/-! ## The revision -/

/-- A batch that changes the friends goes on to another revision, and one that fails changes
nothing. -/
structure Tracks (chat : ChatState) (body : List UInt8) : Prop where
  revised : (applyBatchFriendUpdated body chat).2.friends ≠ chat.friends →
    (applyBatchFriendUpdated body chat).2.friendsRevision ≠ chat.friendsRevision
  unchanged : ∀ error, (applyBatchFriendUpdated body chat).1 = .error error →
    (applyBatchFriendUpdated body chat).2.friends = chat.friends ∧
    (applyBatchFriendUpdated body chat).2.peerNames = chat.peerNames ∧
    (applyBatchFriendUpdated body chat).2.friendsRevision = chat.friendsRevision

/-- A batch that is read to its end. -/
theorem tracks_of_readable {body : List UInt8} (h : Readable (itemsOf body)) :
    Tracks chat body := by
  constructor
  · rw [applyBatch_of_readable h]
    dsimp only
    rw [revision_afterUpdates]
    intro hchanged
    cases hflag : changesFriends chat (updatesOf (itemsOf body)) with
    | true => simp
    | false => exact absurd (friends_of_not_changes hflag) hchanged
  · intro error herror
    rw [applyBatch_of_readable h] at herror
    cases herror

/-- **The exact condition.** The revision tracks the friends when the updates before the first item
that cannot be read leave nothing behind. -/
theorem tracks_iff (chat : ChatState) (body : List UInt8) :
    Tracks chat body ↔ ∀ before item behind error, itemsOf body = before ++ item :: behind →
      Readable before → readUpdate item = .error error → Silent chat (updatesOf before) := by
  constructor
  · intro h before item behind error hsplit hbefore hitem
    have hfailed : applyBatchFriendUpdated body chat =
        (.error error, chat.afterUpdates (updatesOf before)) :=
      applyBatch_of_fails hsplit hbefore hitem
    have hsame := h.unchanged error (by rw [hfailed])
    rw [hfailed] at hsame
    exact (leaves_iff chat _).1 ⟨hsame.1, hsame.2.1⟩
  · intro h
    rcases readable_or_fails (itemsOf body) with hall | ⟨before, item, behind, error, hsplit, hb, hi⟩
    · exact tracks_of_readable hall
    · have hsilent := (leaves_iff chat _).2 (h before item behind error hsplit hb hi)
      constructor
      · intro hchanged
        rw [applyBatch_of_fails hsplit hb hi] at hchanged
        exact absurd hsilent.1 hchanged
      · intro _ _
        rw [applyBatch_of_fails hsplit hb hi]
        exact ⟨hsilent.1, hsilent.2, revision_afterUpdates chat _⟩

/-- The friend with the account id 42 is upserted, and then comes a field that is no message. -/
theorem not_tracks : ¬ ∀ chat body, Tracks chat body := by
  intro h
  have hsame := (h default_ [0x0A, 7, 0x0A, 5, 8, 42, 0x12, 1, 65, 8, 1]).unchanged
    (classicError "BatchFriendUpdated contains a non-message update") (by decide +kernel)
  have hfriend : (applyBatchFriendUpdated [0x0A, 7, 0x0A, 5, 8, 42, 0x12, 1, 65, 8, 1]
      default_).2.friends[(42 : UInt64)]? = some ⟨42, "A", .offline⟩ := by decide +kernel
  rw [hsame.1] at hfriend
  revert hfriend
  decide +kernel

end ChatState

end Superiority.Wc3
