import Superiority.Live.Store

/-!
# The read side

`live/worker/read.ts`: what the viewer's requests select from the rows of one feed. A product
restricts a query to the sessions of one game; without one it spans them all. Where `ORDER BY`
leaves a tie, the row that comes first by its session's id is taken.
-/

namespace Superiority

open Std

def liveWindowMs : Int := 45000

/-- The rows of one feed, by session id. -/
abbrev Feed := ExtTreeMap String SessionTables

/-- `product IS NULL OR sessions.product = product`. -/
def ofProduct (product : Option ProductSlug) (row : SessionRow) : Bool :=
  product.all (· = row.product)

/-- `EXISTS (SELECT 1 FROM channels WHERE … closed_at IS NULL)`. -/
def SessionTables.hasOpenChannel (t : SessionTables) : Bool :=
  t.channels.toList.any fun entry => entry.2.closedAt.isNone

/-- `ORDER BY … DESC, … DESC LIMIT 1`. -/
def newestBy (key : SessionRow → Nat × Nat) (rows : List (String × SessionRow)) :
    Option (String × SessionRow) :=
  rows.foldl (fun best entry => match best with
    | none => some entry
    | some first =>
      if (key first.2).1 < (key entry.2).1
          ∨ (key first.2).1 = (key entry.2).1 ∧ (key first.2).2 < (key entry.2).2
      then some entry else best) none

namespace Feed

/-- The sessions a `WHERE` clause selects. -/
def sessionsWhere (feed : Feed) (selects : SessionTables → SessionRow → Bool) :
    List (String × SessionRow) :=
  feed.toList.filterMap fun (id, t) =>
    t.session.bind fun row => if selects t row then some (id, row) else none

/-- `latestSession`. -/
def latestSession (feed : Feed) (product : Option ProductSlug) : Option (String × SessionRow) :=
  newestBy (fun row => (row.lastSeenAt, row.startedAt))
    (feed.sessionsWhere fun _ row => ofProduct product row)

/-- `snapshotSession`, and the subquery that `channelRows` and `roster` repeat. -/
def snapshotSession (feed : Feed) (product : Option ProductSlug) : Option (String × SessionRow) :=
  newestBy (fun row => (row.syncedAt.getD 0, row.startedAt))
    (feed.sessionsWhere fun t row =>
      row.syncedAt.isSome && ofProduct product row && t.hasOpenChannel)

/-- The rows of the snapshot session; none when there is no such session. -/
def snapshotTables (feed : Feed) (product : Option ProductSlug) : SessionTables :=
  ((feed.snapshotSession product).bind fun session => feed[session.1]?).getD {}

/-- A row of `channelRows`. -/
structure ChannelListing where
  key : String
  kind : String
  name : String
  firstSeenAt : Nat
  lastEventAt : Nat
  memberCount : Nat
  deriving DecidableEq, Repr

/-- A channel as it is listed, with the number of its roster rows. -/
def listing (t : SessionTables) (key : String) (row : ChannelRow) : ChannelListing where
  key := key
  kind := row.kind
  name := row.name
  firstSeenAt := row.firstSeenAt
  lastEventAt := row.lastEventAt
  memberCount := (t.roster[key]?.getD ∅).size

/-- `channelRows`. -/
def channelRows (feed : Feed) (product : Option ProductSlug) : List ChannelListing :=
  let t := feed.snapshotTables product
  ((t.channels.toList.filter fun entry => entry.2.closedAt.isNone).map
    fun entry => listing t entry.1 entry.2).mergeSort fun a b =>
      a.firstSeenAt < b.firstSeenAt || (a.firstSeenAt = b.firstSeenAt && a.key ≤ b.key)

/-- `roster`: the members, those without a `joined_order` last. -/
def roster (feed : Feed) (product : Option ProductSlug) (channelKey : String) :
    List (Nat × RosterRow) :=
  (((feed.snapshotTables product).roster[channelKey]?.getD ∅).toList).mergeSort fun a b =>
    match a.2.joinedOrder, b.2.joinedOrder with
    | none, some _ => false
    | some _, none => true
    | none, none => a.1 ≤ b.1
    | some m, some n => m < n || (m = n && a.1 ≤ b.1)

end Feed

/-- The state `statusOf` reports. -/
inductive FeedState where
  | neverConnected | offline | reconnecting | online
  deriving DecidableEq, Repr

/-- The state part of `statusOf`, at the time `now`. -/
def statusOf (latest : Option (String × SessionRow)) (now : Int) : FeedState :=
  match latest with
  | none => .neverConnected
  | some (_, row) =>
    if row.endedAt.isSome || !decide (now - row.lastSeenAt < liveWindowMs) then .offline
    else if row.syncedAt.isNone then .reconnecting
    else .online

/-! ## One session of a product -/

theorem newestBy_mem {key : SessionRow → Nat × Nat} {rows : List (String × SessionRow)}
    {entry : String × SessionRow} (h : newestBy key rows = some entry) : entry ∈ rows := by
  have hfold (l : List (String × SessionRow)) (best : Option (String × SessionRow))
      (hl : l.foldl (fun best entry => match best with
        | none => some entry
        | some first =>
          if (key first.2).1 < (key entry.2).1
              ∨ (key first.2).1 = (key entry.2).1 ∧ (key first.2).2 < (key entry.2).2
          then some entry else best) best = some entry) : best = some entry ∨ entry ∈ l := by
    induction l generalizing best with
    | nil => exact .inl hl
    | cons next l ih =>
      rcases ih _ hl with hbest | hmem
      · cases best with
        | none => exact .inr (List.mem_cons.2 (.inl (Option.some.inj hbest).symm))
        | some first =>
          dsimp only at hbest
          split at hbest
          · exact .inr (List.mem_cons.2 (.inl (Option.some.inj hbest).symm))
          · exact .inl hbest
      · exact .inr (List.mem_cons_of_mem _ hmem)
  exact (hfold rows none h).resolve_left fun hnone => by cases hnone

theorem newestBy_eq_none {key : SessionRow → Nat × Nat} {rows : List (String × SessionRow)}
    (h : newestBy key rows = none) : rows = [] := by
  have hfold (l : List (String × SessionRow)) (first : String × SessionRow) :
      l.foldl (fun best entry => match best with
        | none => some entry
        | some first =>
          if (key first.2).1 < (key entry.2).1
              ∨ (key first.2).1 = (key entry.2).1 ∧ (key first.2).2 < (key entry.2).2
          then some entry else best) (some first) ≠ none := by
    induction l generalizing first with
    | nil => exact Option.some_ne_none first
    | cons next l ih =>
      rw [List.foldl_cons]
      dsimp only
      split_ifs
      · exact ih next
      · exact ih first
  cases rows with
  | nil => rfl
  | cons first rows => exact absurd h (hfold rows first)

namespace Feed

variable {feed : Feed} {id : String} {t : SessionTables} {row : SessionRow}

theorem mem_sessionsWhere {selects : SessionTables → SessionRow → Bool}
    {entry : String × SessionRow} :
    entry ∈ feed.sessionsWhere selects ↔ ∃ t, feed[entry.1]? = some t ∧
      t.session = some entry.2 ∧ selects t entry.2 = true := by
  rw [sessionsWhere, List.mem_filterMap]
  constructor
  · rintro ⟨⟨id, t⟩, hmem, hentry⟩
    obtain ⟨row, hrow, hselected⟩ := Option.bind_eq_some_iff.1 hentry
    split at hselected
    · next hselects =>
      obtain rfl := Option.some.inj hselected
      exact ⟨t, ExtTreeMap.mem_toList_iff_getElem?_eq_some.1 hmem, hrow, hselects⟩
    · cases hselected
  · rintro ⟨t, hlookup, hrow, hselects⟩
    refine ⟨(entry.1, t), ExtTreeMap.mem_toList_iff_getElem?_eq_some.2 hlookup, ?_⟩
    show t.session.bind _ = _
    rw [hrow, Option.bind_some, if_pos hselects]

/-- A session is the feed's only one of a product. -/
structure OnlySession (feed : Feed) (id : String) (t : SessionTables) (product : ProductSlug) :
    Prop where
  rows : feed[id]? = some t
  own : ∀ row, t.session = some row → row.product = product
  others : ∀ (other : String) (t' : SessionTables) (row : SessionRow), feed[other]? = some t' →
    t'.session = some row → row.product = product → other = id

/-- Of the sessions of a product that has only one, a query can only select that one. -/
theorem newestBy_only {product : ProductSlug} (h : feed.OnlySession id t product)
    (hrow : t.session = some row) {selects : SessionTables → SessionRow → Bool}
    (hproduct : ∀ t row, selects t row = true → row.product = product)
    (key : SessionRow → Nat × Nat) :
    newestBy key (feed.sessionsWhere selects) = if selects t row then some (id, row) else none := by
  have hselected : ∀ entry ∈ feed.sessionsWhere selects,
      entry = (id, row) ∧ selects t row = true := by
    intro entry hentry
    obtain ⟨t', hlookup, hsession, hselects⟩ := mem_sessionsWhere.1 hentry
    have hid := h.others entry.1 t' entry.2 hlookup hsession (hproduct t' entry.2 hselects)
    rw [hid, h.rows] at hlookup
    obtain rfl := Option.some.inj hlookup
    rw [hrow] at hsession
    obtain rfl := Option.some.inj hsession
    exact ⟨Prod.ext hid rfl, hselects⟩
  cases hnewest : newestBy key (feed.sessionsWhere selects) with
  | some entry =>
    obtain ⟨rfl, hselects⟩ := hselected entry (newestBy_mem hnewest)
    rw [if_pos hselects]
  | none =>
    have hnil := newestBy_eq_none hnewest
    by_cases hselects : selects t row = true
    · have hmem : (id, row) ∈ feed.sessionsWhere selects :=
        mem_sessionsWhere.2 ⟨t, h.rows, hrow, hselects⟩
      rw [hnil] at hmem
      exact absurd hmem List.not_mem_nil
    · rw [if_neg hselects]

theorem snapshotSession_only {product : ProductSlug} (h : feed.OnlySession id t product)
    (hrow : t.session = some row) :
    feed.snapshotSession (some product) =
      if row.syncedAt.isSome && t.hasOpenChannel then some (id, row) else none := by
  have hproduct : ofProduct (some product) row = true := by
    simp [ofProduct, h.own row hrow]
  rw [snapshotSession, newestBy_only h hrow]
  · simp [hproduct]
  · intro t' row' hselects
    simp only [Bool.and_eq_true, ofProduct, Option.all_some, decide_eq_true_eq] at hselects
    exact hselects.1.2.symm

theorem latestSession_only {product : ProductSlug} (h : feed.OnlySession id t product)
    (hrow : t.session = some row) : feed.latestSession (some product) = some (id, row) := by
  have hproduct : ofProduct (some product) row = true := by
    simp [ofProduct, h.own row hrow]
  rw [latestSession, newestBy_only h hrow, if_pos hproduct]
  intro t' row' hselects
  simp only [ofProduct, Option.all_some, decide_eq_true_eq] at hselects
  exact hselects.symm

/-- The read side of a product shows a session: it is the snapshot, its open channels are listed
with the numbers of their members, its rosters are its members, and it is online while it has
been heard of within the live window. -/
structure Shows (feed : Feed) (product : ProductSlug) (id : String) (t : SessionTables) : Prop where
  snapshot : (feed.snapshotSession (some product)).map (·.1) = some id
  channels : ∀ entry, entry ∈ feed.channelRows (some product) ↔
    ∃ (key : String) (row : ChannelRow), t.channels[key]? = some row ∧ row.closedAt = none ∧
      listing t key row = entry
  members : ∀ (key : String) (member : Nat × RosterRow),
    member ∈ feed.roster (some product) key ↔
      (t.roster[key]?.getD ∅)[member.1]? = some member.2
  online : ∀ (now : Int), (∀ row, t.session = some row → now - row.lastSeenAt < liveWindowMs) →
    statusOf (feed.latestSession (some product)) now = .online

theorem hasOpenChannel_iff : t.hasOpenChannel = true ↔
    ∃ (key : String) (row : ChannelRow), t.channels[key]? = some row ∧ row.closedAt = none := by
  rw [SessionTables.hasOpenChannel, List.any_eq_true]
  constructor
  · rintro ⟨⟨key, row⟩, hmem, hopen⟩
    exact ⟨key, row, ExtTreeMap.mem_toList_iff_getElem?_eq_some.1 hmem,
      Option.isNone_iff_eq_none.1 hopen⟩
  · rintro ⟨key, row, hlookup, hopen⟩
    exact ⟨(key, row), ExtTreeMap.mem_toList_iff_getElem?_eq_some.2 hlookup,
      Option.isNone_iff_eq_none.2 hopen⟩

/-- **What the read side asks of a session**: to be synced and to have an open channel. -/
theorem shows_iff {product : ProductSlug} (h : feed.OnlySession id t product)
    (hrow : t.session = some row) (hopen : row.endedAt = none) :
    feed.Shows product id t ↔ row.syncedAt.isSome ∧ t.hasOpenChannel = true := by
  have hsnapshot := snapshotSession_only h hrow
  constructor
  · intro hshows
    have hchosen := hshows.snapshot
    rw [hsnapshot] at hchosen
    split at hchosen
    · next hselected =>
      rw [Bool.and_eq_true] at hselected
      exact hselected
    · cases hchosen
  · rintro ⟨hsynced, hchannel⟩
    rw [if_pos (by rw [hsynced, hchannel]; rfl)] at hsnapshot
    have htables : feed.snapshotTables (some product) = t := by
      rw [snapshotTables, hsnapshot, Option.bind_some, h.rows, Option.getD_some]
    refine ⟨by rw [hsnapshot]; rfl, ?_, ?_, ?_⟩
    · intro entry
      rw [channelRows, htables]
      simp only [List.mem_mergeSort, List.mem_map, List.mem_filter,
        ExtTreeMap.mem_toList_iff_getElem?_eq_some, Option.isNone_iff_eq_none, Prod.exists]
      constructor
      · rintro ⟨key, row, ⟨hlookup, hclosed⟩, rfl⟩
        exact ⟨key, row, hlookup, hclosed, rfl⟩
      · rintro ⟨key, row, hlookup, hclosed, rfl⟩
        exact ⟨key, row, ⟨hlookup, hclosed⟩, rfl⟩
    · intro key member
      rw [roster, htables, List.mem_mergeSort]
      exact ExtTreeMap.mem_toList_iff_getElem?_eq_some
    · intro now hfresh
      obtain ⟨ts, hts⟩ := Option.isSome_iff_exists.1 hsynced
      rw [latestSession_only h hrow, statusOf, hopen, hts]
      simp [hfresh row hrow]

end Feed

end Superiority
