import Superiority.Bsn.Stability

/-!
# Club responses

The part of `native/decode.rs` that reads the answers to `GetToonClubs` and `GetClubInfo`. Their
types are obfuscated and have no wire layout, so the list of clubs is found by hand: a club element
begins where the one before it ends, and its fields lie at fixed distances from its start, from the
end of its name and from the end of its tag.

An element that runs past the buffer makes the record incomplete. An element that does not read as a
club ends the list, without an error, and the record seems to end there.

**`decodedWhole_clubs_iff`** – a response that is accepted has all declared clubs, and leaves the
reader behind them, exactly when the name and the tag of every declared element read.
-/

namespace Superiority.Native

open Std Bsn Reading

/-! ## Head counts -/

structure ClubCounts where
  memberCount : Option UInt32 := none
  online : Option UInt32 := none
  deriving DecidableEq, Repr

abbrev ClubCountMap : Type := ExtTreeMap UInt32 ClubCounts

/-- `BsnStruct::get`. -/
def structGet (fields : List BsnField) (name : String) : Option BsnValue :=
  match fields with
  | [] => none
  | .mk _ fieldName value :: fields =>
    if fieldName = some name then some value else structGet fields name

def structU32 (fields : List BsnField) (name : String) : Option UInt32 :=
  match structGet fields name with
  | some (.integer number) =>
    if 0 ≤ number ∧ number < 2 ^ 32 then some (UInt32.ofNat number.toNat) else none
  | _ => none

/-- `counts.entry(club_id).or_default()`, where what is known stays. -/
def noteClub (counts : ClubCountMap) (clubId : UInt32) (memberCount online : Option UInt32) :
    ClubCountMap :=
  let entry := counts.getD clubId {}
  counts.insert clubId
    { memberCount := entry.memberCount.or memberCount, online := entry.online.or online }

/-- A `ClubInfo`: a summary with the live status beside it. -/
def noteClubInfo (fields : List BsnField) (counts : ClubCountMap) : ClubCountMap :=
  match structGet fields "m_summary", structGet fields "m_status" with
  | some (.struct _ summary), some (.struct _ status) =>
    match structU32 summary "m_id" with
    | some clubId =>
      noteClub counts clubId (structU32 summary "m_memberCount") (structU32 status "m_online")
    | none => counts
  | _, _ => counts

/-- A `ClubSummaryInfo` by itself. -/
def noteClubSummary (fields : List BsnField) (counts : ClubCountMap) : ClubCountMap :=
  match structU32 fields "m_id", structU32 fields "m_memberCount" with
  | some clubId, some memberCount => noteClub counts clubId (some memberCount) none
  | _, _ => counts

mutual

def collectClubCounts : BsnValue → ClubCountMap → ClubCountMap
  | .struct _ fields, counts =>
    collectFields fields (noteClubSummary fields (noteClubInfo fields counts))
  | .array items, counts => collectItems items counts
  | .optional (some inner), counts => collectClubCounts inner counts
  | .choice _ inner, counts => collectClubCounts inner counts
  | _, counts => counts

def collectFields : List BsnField → ClubCountMap → ClubCountMap
  | [], counts => counts
  | .mk _ _ value :: fields, counts => collectFields fields (collectClubCounts value counts)

def collectItems : List BsnValue → ClubCountMap → ClubCountMap
  | [], counts => counts
  | item :: items, counts => collectItems items (collectClubCounts item counts)

end

/-! ## The clubs of a response -/

structure ClubSummary where
  clubId : UInt32
  name : Option String
  kind : UInt8
  category : UInt8
  isPrivate : Bool
  memberCount : Option UInt32
  online : Option UInt32
  deriving DecidableEq, Repr

def applyClubCounts (clubs : List ClubSummary) (counts : ClubCountMap) : List ClubSummary :=
  clubs.map fun club =>
    match counts[club.clubId]? with
    | none => club
    | some found => { club with memberCount := found.memberCount, online := found.online }

def clubFirstElement : Nat := 52
def clubIdOffset : Nat := 32
def clubNameLengthOffset : Nat := 72
def clubNameLengthBits : Nat := 8
def clubCategoryOffset : Nat := 64
def clubTypeOffset : Nat := 134
def clubTagFlagOffset : Nat := 206
def clubPrivateFlagOffset : Nat := 128
def clubElementTail : Nat := 158
def clubIconFlagOffset : Nat := 28
def clubIconBytes : Nat := 40
def clubElementRemainder : Nat := clubElementTail - clubIconFlagOffset - 1
def clubCountOffset : Nat := 12
def clubCountBits : Nat := 8
def clubLimit : Nat := 201

/-- `bits.div_ceil(8) * 8`. -/
def roundUp (bits : Nat) : Nat := (bits + 7) / 8 * 8

/-- The first half of a round of the walk: the loop ends, or there is a club, and its name ends
there. -/
inductive Head where
  | stop (incomplete : Bool)
  | club (club : ClubSummary) (nameEnd : Nat)

/-- The second half: the loop ends behind the club, or goes on with the next element. -/
inductive Rest where
  | stop (incomplete : Bool)
  | next (start : Nat)

/-- The name of a club, if its bytes are one. -/
def clubName (bytes : List UInt8) : Option String :=
  match fromUtf8 bytes with
  | none => none
  | some name => if name.toList.any isControl then none else some name

def readPrivate (total privateAt : Nat) : Reading Nat :=
  if privateAt < total then readAt privateAt 1 else pure 0

/-- A round up to `clubs.push`. -/
def readHead (total start : Nat) : Reading Head := do
  let lengthAt := start + clubNameLengthOffset
  if lengthAt + clubNameLengthBits > total then return .stop true
  else do
    let clubId ← readAt (start + clubIdOffset) 32
    let length ← readAt lengthAt clubNameLengthBits
    let textAt := roundUp (lengthAt + clubNameLengthBits)
    if length = 0 ∨ length > 32 then return .stop false
    else if textAt + length * 8 > total then return .stop true
    else do
      seek textAt
      match (← (readBytes length false).attempt).bind clubName with
      | none => return .stop false
      | some name => do
        let nameEnd := textAt + length * 8
        let category ← readAt (start + clubCategoryOffset) 8
        if nameEnd + clubTypeOffset + 8 > total then return .stop true
        else do
          let kind ← readAt (nameEnd + clubTypeOffset) 8
          let privateAt := nameEnd + clubPrivateFlagOffset
          let flag ← readPrivate total privateAt
          return .club {
            clubId := UInt32.ofNat clubId
            name := some name
            kind := UInt8.ofNat kind
            category := UInt8.ofNat category
            isPrivate := flag == 1
            memberCount := none
            online := none } nameEnd

/-- The icon of a club and what lies behind it. -/
def readIcon (total cursor : Nat) : Reading Rest := do
  let iconAt := cursor + clubIconFlagOffset
  if iconAt ≥ total then return .stop true
  else do
    let flag ← readAt iconAt 1
    if flag = 1 then
      let handle := roundUp (iconAt + 1) + clubIconBytes * 8
      if handle > total then return .stop true
      else return .next (handle + clubElementRemainder)
    else return .next (iconAt + 1 + clubElementRemainder)

/-- A round behind `clubs.push`. -/
def readRest (total nameEnd : Nat) : Reading Rest := do
  let flagAt := nameEnd + clubTagFlagOffset
  if flagAt + 6 > total then return .stop true
  else do
    let flag ← readAt flagAt 1
    if flag = 1 then do
      let tag ← read 5
      if tag > 24 then return .stop false
      else readIcon total (roundUp (flagAt + 1 + 5) + tag * 8)
    else readIcon total (flagAt + 1)

/-- What the walk returns. -/
structure Walked where
  clubs : List ClubSummary
  start : Nat
  incomplete : Bool

/-- The loop, with the number of clubs that are still missing. -/
def walkElements (total : Nat) : (missing start : Nat) → Reading Walked
  | 0, start => return ⟨[], start, false⟩
  | missing + 1, start => do
    match ← readHead total start with
    | .stop incomplete => return ⟨[], start, incomplete⟩
    | .club club nameEnd => do
      match ← readRest total nameEnd with
      | .stop incomplete => return ⟨[club], start, incomplete⟩
      | .next next => do
        let rest ← walkElements total missing next
        return { rest with clubs := club :: rest.clubs }

def walkClubElements (total : Nat) : Reading Walked := do
  let declared ← readAt clubCountOffset clubCountBits
  walkElements total (min declared clubLimit) clubFirstElement

def incompleteClubFrame (bufferBits : Nat) : Error :=
  .incompleteFrame s!"club record runs past the {bufferBits / 8} bytes buffered"

/-- Both responses: how many bits lie behind the last element, and the error when they are not
there. `decode` is the codec on the type of the response. -/
def clubResponse (tail : Nat → Nat) (short : (stop bufferBits : Nat) → Error)
    (decode : Reading BsnValue) : Reading (List ClubSummary) := fun r =>
  let bufferBits := r.data.length * 8
  let response : Reading (List ClubSummary) := do
    let walked ← decode.attempt
    let walkedEnd ← Tape.place
    let counts := walked.elim ∅ fun value => collectClubCounts value ∅
    seek r.position
    match ← (walkClubElements (if walked.isSome then walkedEnd else bufferBits)).attempt with
    | none => Decoder.fail (incompleteClubFrame bufferBits)
    | some ⟨clubs, start, incomplete⟩ =>
      if incomplete then Decoder.fail (incompleteClubFrame bufferBits)
      else do
        let stop := roundUp (start + tail clubs.length)
        if stop > bufferBits then Decoder.fail (short stop bufferBits)
        else do
          seek stop
          return applyClubCounts clubs counts
  response r

/-- Each summary ends with a `u32`, one rank byte for each club, and a final flag. -/
def summariesTail (count : Nat) : Nat := 32 + 8 + count * 8 + 1

def infoTail (_ : Nat) : Nat := 1

def clubSummaries : Reading BsnValue → Reading (List ClubSummary) :=
  clubResponse summariesTail fun _ bufferBits => incompleteClubFrame bufferBits

def clubInfo : Reading BsnValue → Reading (List ClubSummary) :=
  clubResponse infoTail fun stop bufferBits =>
    .incompleteFrame s!"club info needs {stop / 8} bytes, {bufferBits / 8} buffered"

/-! ## The elements of a record -/

section layout

variable (data : List UInt8) (start : Nat)

def nameLength : Nat := field data (start + clubNameLengthOffset) clubNameLengthBits

def nameAt : Nat := roundUp (start + clubNameLengthOffset + clubNameLengthBits)

def nameEnd : Nat := nameAt start + nameLength data start * 8

def tagFlagAt : Nat := nameEnd data start + clubTagFlagOffset

def tagLength : Nat := field data (tagFlagAt data start + 1) 5

/-- The end of the tag, however long it is. -/
def tagEnd : Nat :=
  if field data (tagFlagAt data start) 1 = 1
  then roundUp (tagFlagAt data start + 6) + tagLength data start * 8
  else tagFlagAt data start + 1

def iconFlagAt : Nat := tagEnd data start + clubIconFlagOffset

/-- The end of an element whose icon flag lies there. -/
def iconEnd (flagAt : Nat) : Nat :=
  (if field data flagAt 1 = 1 then roundUp (flagAt + 1) + clubIconBytes * 8 else flagAt + 1) +
    clubElementRemainder

/-- Where an element ends, and the next one begins. -/
def elementEnd : Nat := iconEnd data (iconFlagAt data start)

/-- The start of an element, counted from one that begins at `start`. -/
def elementStart : Nat → Nat
  | 0 => start
  | index + 1 => elementEnd data (elementStart index)

end layout

/-- The name of the element is supplied, has 1 to 32 bytes, and these are a club name. -/
def NameReads (r : BitReader) (start : Nat) : Prop :=
  nameLength r.data start ≠ 0 ∧ nameLength r.data start ≤ 32 ∧ nameEnd r.data start ≤ r.bitCount ∧
    clubName ((r.data.drop (nameAt start / 8)).take (nameLength r.data start)) ≠ none

/-- The element has no tag, or one of at most 24 bytes. -/
def TagReads (r : BitReader) (start : Nat) : Prop :=
  field r.data (tagFlagAt r.data start) 1 = 1 → tagLength r.data start ≤ 24

instance (r : BitReader) (start : Nat) : Decidable (NameReads r start) :=
  inferInstanceAs (Decidable (_ ∧ _ ∧ _ ∧ _ ≠ none))

instance (r : BitReader) (start : Nat) : Decidable (TagReads r start) :=
  inferInstanceAs (Decidable (_ → _))

/-- How many clubs a record declares, up to the limit. -/
def declaredClubs (r : BitReader) : Nat :=
  min (field r.data clubCountOffset clubCountBits) clubLimit

/-- Two readers of one buffer. -/
def SameBuffer (r s : BitReader) : Prop := s.data = r.data ∧ s.bitCount = r.bitCount

theorem SameBuffer.trans {r s t : BitReader} (h : SameBuffer r s) (h' : SameBuffer s t) :
    SameBuffer r t := ⟨h'.1.trans h.1, h'.2.trans h.2⟩

theorem SameBuffer.nameReads {r s : BitReader} (h : SameBuffer r s) (start : Nat) :
    NameReads s start ↔ NameReads r start := by
  rw [NameReads, NameReads, h.1, h.2]

theorem SameBuffer.tagReads {r s : BitReader} (h : SameBuffer r s) (start : Nat) :
    TagReads s start ↔ TagReads r start := by
  rw [TagReads, TagReads, h.1]

/-! ## What a round reads -/

/-- A round stops at a name that does not read, or goes on behind one that does. -/
def Head.Follows (r : BitReader) (start : Nat) : Head → Prop
  | .stop incomplete => incomplete = false → ¬ NameReads r start
  | .club _ textEnd => NameReads r start ∧ textEnd = nameEnd r.data start

/-- A round stops at a tag that does not read, or goes on behind the element. -/
def Rest.Follows (r : BitReader) (start : Nat) : Rest → Prop
  | .stop incomplete => incomplete = false → ¬ TagReads r start
  | .next behind => TagReads r start ∧ behind = elementEnd r.data start

section round

variable {r s : BitReader} {total start : Nat}

theorem readAt_spec {position width value : Nat} (h : readAt position width r = .done value s) :
    SameBuffer r s ∧ value = field r.data position width ∧ s.position = position + width := by
  obtain ⟨-, -, hvalue, hdata, hcount, hposition⟩ := readAt_done.1 h
  exact ⟨⟨hdata, hcount⟩, hvalue, hposition⟩

/-- Reading the name of an element: what comes of it is a name exactly when the name reads. -/
theorem readName_spec (hsize : r.data.length < 2 ^ 64) {length : Nat} {name : Option (List UInt8)}
    {t : BitReader} (hlength : length = nameLength r.data start) (hzero : length ≠ 0)
    (hlimit : length ≤ 32) (hseek : seek (nameAt start) r = .done () t)
    (hbytes : (readBytes length false).attempt t = .done name s) :
    SameBuffer r s ∧ (name.bind clubName ≠ none ↔ NameReads r start) := by
  obtain ⟨-, hdata, hcount, hposition⟩ := seek_done.1 hseek
  have hboundary : t.position % 8 = 0 := by
    rw [hposition, nameAt, roundUp]
    omega
  have hend : (t.position / 8 + length) * 8 = nameEnd r.data start := by
    rw [hposition, hlength, nameEnd, nameAt, roundUp]
    omega
  have hsupplied := t.supplied
  rw [hdata] at hsupplied
  cases name with
  | some bytes =>
    obtain ⟨-, hroom, rfl, hdata', hcount', -⟩ :=
      (copyBytes_done hboundary).1 (Decoder.attempt_some.1 hbytes)
    refine ⟨⟨hdata'.trans hdata, hcount'.trans hcount⟩, ?_⟩
    rw [Option.bind_some, hdata, hposition, hlength]
    rw [hend, hcount] at hroom
    constructor
    · exact fun hname => ⟨hlength ▸ hzero, hlength ▸ hlimit, hroom, hname⟩
    · exact fun hname => hname.2.2.2
  | none =>
    obtain ⟨e, hfailed⟩ := Decoder.attempt_none.1 hbytes
    have hfailed : copyBytes length t = .failed e s := hfailed
    rw [copyBytes_of_boundary hboundary] at hfailed
    split_ifs at hfailed with hwide hroom
    · obtain ⟨-, rfl⟩ := Outcome.failed.inj hfailed
      refine ⟨⟨hdata, hcount⟩, iff_of_false (by simp) fun hname => ?_⟩
      have hroom := hname.2.2.1
      omega
    · obtain ⟨-, rfl⟩ := Outcome.failed.inj hfailed
      refine ⟨⟨hdata, hcount⟩, iff_of_false (by simp) fun hname => hroom ?_⟩
      rw [hend, hcount]
      exact hname.2.2.1

theorem readHead_spec (hsize : r.data.length < 2 ^ 64) {head : Head}
    (h : readHead total start r = .done head s) :
    SameBuffer r s ∧ head.Follows r start := by
  have hself : SameBuffer r r := ⟨rfl, rfl⟩
  unfold readHead at h
  split_ifs at h
  · obtain ⟨rfl, rfl⟩ := Decoder.pure_done.1 h
    exact ⟨hself, fun h => nomatch h⟩
  · obtain ⟨clubId, t, hid, h⟩ := Decoder.bind_done.1 h
    obtain ⟨hid, -, -⟩ := readAt_spec hid
    obtain ⟨length, u, hlength, h⟩ := Decoder.bind_done.1 h
    obtain ⟨hu, hlength, -⟩ := readAt_spec hlength
    have hu := hid.trans hu
    rw [hid.1] at hlength
    split_ifs at h with hbad hlong
    · obtain ⟨rfl, rfl⟩ := Decoder.pure_done.1 h
      refine ⟨hu, fun _ hname => ?_⟩
      obtain ⟨hzero, hlimit, -⟩ := hname
      unfold nameLength at hzero hlimit
      omega
    · obtain ⟨rfl, rfl⟩ := Decoder.pure_done.1 h
      exact ⟨hu, fun h => nomatch h⟩
    · obtain ⟨hzero, hlimit⟩ := not_or.1 hbad
      obtain ⟨_, v, hseek, h⟩ := Decoder.bind_done.1 h
      obtain ⟨bytes, w, hbytes, h⟩ := Decoder.bind_done.1 h
      obtain ⟨hw, hname⟩ := readName_spec (hu.1 ▸ hsize) (hu.1 ▸ hlength) hzero
        (Nat.not_lt.1 hlimit) hseek hbytes
      have hw := hu.trans hw
      rw [hu.nameReads] at hname
      cases hread : bytes.bind clubName with
      | none =>
        rw [hread] at h hname
        obtain ⟨rfl, rfl⟩ := Decoder.pure_done.1 h
        exact ⟨hw, fun _ hreads => hname.2 hreads rfl⟩
      | some name =>
        rw [hread] at h hname
        obtain ⟨category, x, hcategory, h⟩ := Decoder.bind_done.1 h
        have hx := hw.trans (readAt_spec hcategory).1
        split_ifs at h
        · obtain ⟨rfl, rfl⟩ := Decoder.pure_done.1 h
          exact ⟨hx, fun h => nomatch h⟩
        · obtain ⟨kind, y, hkind, h⟩ := Decoder.bind_done.1 h
          have hy := hx.trans (readAt_spec hkind).1
          obtain ⟨flag, z, hflag, h⟩ := Decoder.bind_done.1 h
          have hz : SameBuffer y z := by
            unfold readPrivate at hflag
            split_ifs at hflag
            · exact (readAt_spec hflag).1
            · obtain ⟨-, rfl⟩ := Decoder.pure_done.1 hflag
              exact ⟨rfl, rfl⟩
          obtain ⟨rfl, rfl⟩ := Decoder.pure_done.1 h
          refine ⟨hy.trans hz, hname.1 (by simp), ?_⟩
          rw [hlength]
          rfl

theorem readIcon_spec {cursor : Nat} {rest : Rest} (h : readIcon total cursor r = .done rest s) :
    SameBuffer r s ∧
      (rest = .stop true ∨ rest = .next (iconEnd r.data (cursor + clubIconFlagOffset))) := by
  have hself : SameBuffer r r := ⟨rfl, rfl⟩
  unfold readIcon at h
  split_ifs at h
  · obtain ⟨rfl, rfl⟩ := Decoder.pure_done.1 h
    exact ⟨hself, Or.inl rfl⟩
  · obtain ⟨flag, t, hflag, h⟩ := Decoder.bind_done.1 h
    obtain ⟨ht, rfl, -⟩ := readAt_spec hflag
    unfold iconEnd
    split_ifs at h ⊢ with hicon
    · dsimp only at h
      split_ifs at h
      · obtain ⟨rfl, rfl⟩ := Decoder.pure_done.1 h
        exact ⟨ht, Or.inl rfl⟩
      · obtain ⟨rfl, rfl⟩ := Decoder.pure_done.1 h
        exact ⟨ht, Or.inr rfl⟩
    · obtain ⟨rfl, rfl⟩ := Decoder.pure_done.1 h
      exact ⟨ht, Or.inr rfl⟩

theorem readRest_spec {rest : Rest} (h : readRest total (nameEnd r.data start) r = .done rest s) :
    SameBuffer r s ∧ rest.Follows r start := by
  have hself : SameBuffer r r := ⟨rfl, rfl⟩
  -- What lies behind the tag, once it is read.
  have hicon : ∀ {t cursor}, SameBuffer r t → TagReads r start → cursor = tagEnd r.data start →
      readIcon total cursor t = .done rest s → SameBuffer r s ∧ rest.Follows r start := by
    rintro t cursor ht htag rfl h
    obtain ⟨hs, rfl | rfl⟩ := readIcon_spec h
    · exact ⟨ht.trans hs, fun h => nomatch h⟩
    · rw [ht.1]
      exact ⟨ht.trans hs, htag, rfl⟩
  unfold readRest at h
  split_ifs at h
  · obtain ⟨rfl, rfl⟩ := Decoder.pure_done.1 h
    exact ⟨hself, fun h => nomatch h⟩
  · obtain ⟨flag, t, hflag, h⟩ := Decoder.bind_done.1 h
    obtain ⟨ht, rfl, hposition⟩ := readAt_spec hflag
    split_ifs at h with hflagged
    · obtain ⟨tag, u, htag, h⟩ := Decoder.bind_done.1 h
      obtain ⟨-, -, htag, hdata, hcount, -⟩ := read_done.1 htag
      have hu : SameBuffer r u := ht.trans ⟨hdata, hcount⟩
      have htag : tag = tagLength r.data start := by
        rw [htag, ht.1, hposition]
        rfl
      split_ifs at h with hlong
      · obtain ⟨rfl, rfl⟩ := Decoder.pure_done.1 h
        exact ⟨hu, fun _ hreads => absurd (hreads hflagged) (htag ▸ Nat.not_le.2 hlong)⟩
      · refine hicon hu (fun _ => htag ▸ Nat.not_lt.1 hlong) ?_ h
        rw [tagEnd, tagFlagAt, if_pos hflagged, htag]
    · refine hicon ht (fun h => absurd h hflagged) ?_ h
      rw [tagEnd, tagFlagAt, if_neg hflagged]

end round

/-! ## What the walk reads -/

/-- The walk over a number of elements: it finds so many clubs and ends at an element. -/
inductive Walks (r : BitReader) : (missing start clubs stop : Nat) → Prop where
  | done {start : Nat} : Walks r 0 start 0 start
  | badName {missing start : Nat} : ¬ NameReads r start → Walks r (missing + 1) start 0 start
  | badTag {missing start : Nat} : NameReads r start → ¬ TagReads r start →
      Walks r (missing + 1) start 1 start
  | next {missing start clubs stop : Nat} : NameReads r start → TagReads r start →
      Walks r missing (elementEnd r.data start) clubs stop →
      Walks r (missing + 1) start (clubs + 1) stop

theorem Walks.congr {r s : BitReader} {missing start clubs stop : Nat} (hsame : SameBuffer r s)
    (h : Walks s missing start clubs stop) : Walks r missing start clubs stop := by
  induction h with
  | done => exact .done
  | badName hname => exact .badName (by rwa [← hsame.nameReads])
  | badTag hname htag =>
    rw [hsame.nameReads] at hname
    rw [hsame.tagReads] at htag
    exact .badTag hname htag
  | next hname htag _ ih =>
    rw [hsame.nameReads] at hname
    rw [hsame.tagReads] at htag
    rw [hsame.1] at ih
    exact .next hname htag ih

theorem walkElements_spec {total missing start : Nat} {r s : BitReader} {walked : Walked}
    (hsize : r.data.length < 2 ^ 64)
    (h : walkElements total missing start r = .done walked s)
    (hcomplete : walked.incomplete = false) :
    Walks r missing start walked.clubs.length walked.start := by
  induction missing generalizing r start walked with
  | zero =>
    obtain ⟨rfl, rfl⟩ := Decoder.pure_done.1 h
    exact .done
  | succ missing ih =>
    obtain ⟨head, t, hhead, h⟩ := Decoder.bind_done.1 h
    obtain ⟨ht, hhead⟩ := readHead_spec hsize hhead
    cases head with
    | stop incomplete =>
      obtain ⟨rfl, rfl⟩ := Decoder.pure_done.1 h
      exact .badName (hhead hcomplete)
    | club club textEnd =>
      obtain ⟨hname, rfl⟩ := hhead
      obtain ⟨rest, u, hrest, h⟩ := Decoder.bind_done.1 h
      rw [← ht.1] at hrest
      obtain ⟨hu, hrest⟩ := readRest_spec hrest
      have hu := ht.trans hu
      cases rest with
      | stop incomplete =>
        obtain ⟨rfl, rfl⟩ := Decoder.pure_done.1 h
        refine .badTag hname ?_
        rw [← ht.tagReads]
        exact hrest hcomplete
      | next behind =>
        obtain ⟨htag, rfl⟩ := hrest
        obtain ⟨others, v, hothers, h⟩ := Decoder.bind_done.1 h
        obtain ⟨rfl, rfl⟩ := Decoder.pure_done.1 h
        have hwalks := ih (hu.1 ▸ hsize) hothers hcomplete
        rw [ht.1] at hwalks
        exact .next hname ((ht.tagReads _).1 htag) (hwalks.congr hu)

/-! ## Where a walk ends -/

section layout

variable (data : List UInt8)

theorem le_roundUp (bits : Nat) : bits ≤ roundUp bits := by
  rw [roundUp]
  omega

/-- An element is longer than what stands before its tag. -/
theorem elementEnd_ge (start : Nat) : start + 286 ≤ elementEnd data start := by
  have hname := le_roundUp (start + clubNameLengthOffset + clubNameLengthBits)
  have htag := le_roundUp (tagFlagAt data start + 6)
  have hicon := le_roundUp (iconFlagAt data start + 1)
  have hflag : start + 286 ≤ tagFlagAt data start := by
    simp only [tagFlagAt, nameEnd, nameAt, clubNameLengthOffset, clubNameLengthBits,
      clubTagFlagOffset] at hname ⊢
    omega
  have htagEnd : tagFlagAt data start ≤ tagEnd data start := by
    unfold tagEnd
    split_ifs <;> omega
  have hiconAt : tagEnd data start ≤ iconFlagAt data start := Nat.le_add_right _ _
  unfold elementEnd iconEnd
  split_ifs <;> omega

theorem elementStart_succ (start index : Nat) : elementStart data start (index + 1) =
    elementStart data (elementEnd data start) index := by
  induction index with
  | zero => rfl
  | succ index ih => rw [elementStart, ih, elementStart]

theorem elementStart_mono (start : Nat) {i j : Nat} (h : i ≤ j) :
    elementStart data start i ≤ elementStart data start j := by
  induction h with
  | refl => exact le_rfl
  | @step index _ ih =>
    have hnext := elementEnd_ge data (elementStart data start index)
    exact ih.trans ((Nat.le_add_right _ _).trans hnext)

end layout

/-- The three ways in which the walk ends. -/
theorem Walks.ends {r : BitReader} {missing start clubs stop : Nat}
    (h : Walks r missing start clubs stop) :
    (clubs = missing ∧ stop = elementStart r.data start clubs ∧ ∀ index < clubs,
      NameReads r (elementStart r.data start index) ∧
        TagReads r (elementStart r.data start index)) ∨
    (clubs < missing ∧ ¬ NameReads r (elementStart r.data start clubs)) ∨
    ∃ last, clubs = last + 1 ∧ clubs ≤ missing ∧ stop = elementStart r.data start last ∧
      ¬ TagReads r (elementStart r.data start last) ∧
      (∀ index ≤ last, NameReads r (elementStart r.data start index)) ∧
      ∀ index < last, TagReads r (elementStart r.data start index) := by
  induction h with
  | done => exact Or.inl ⟨rfl, rfl, fun index h => absurd h (Nat.not_lt_zero index)⟩
  | badName hname => exact Or.inr (Or.inl ⟨Nat.succ_pos _, hname⟩)
  | badTag hname htag =>
    refine Or.inr (Or.inr ⟨0, rfl, by omega, rfl, htag, fun index hindex => ?_,
      fun index h => absurd h (Nat.not_lt_zero index)⟩)
    rw [Nat.le_zero.1 hindex]
    exact hname
  | next hname htag _ ih =>
    rcases ih with ⟨rfl, rfl, hall⟩ | ⟨hlt, hbad⟩ | ⟨last, rfl, hle, rfl, hbad, hnames, htags⟩
    · refine Or.inl ⟨rfl, (elementStart_succ ..).symm, fun index hindex => ?_⟩
      cases index with
      | zero => exact ⟨hname, htag⟩
      | succ index =>
        rw [elementStart_succ]
        exact hall index (by omega)
    · refine Or.inr (Or.inl ⟨by omega, ?_⟩)
      rwa [elementStart_succ]
    · refine Or.inr (Or.inr ⟨last + 1, rfl, by omega, (elementStart_succ ..).symm, ?_, ?_, ?_⟩)
      · rwa [elementStart_succ]
      · intro index hindex
        cases index with
        | zero => exact hname
        | succ index =>
          rw [elementStart_succ]
          exact hnames index (by omega)
      · intro index hindex
        cases index with
        | zero => exact htag
        | succ index =>
          rw [elementStart_succ]
          exact htags index (by omega)

/-! ## Whole responses -/

section response

variable {tail : Nat → Nat} {short : Nat → Nat → Error} {decode : Reading BsnValue}
  {r s : BitReader} {clubs : List ClubSummary}

/-- A response whose type the codec refuses: the clubs are those that the walk finds, and the reader
is left behind the element at which the walk ends and the tail of the record. -/
theorem clubResponse_done {e : Error} (hsize : r.data.length < 2 ^ 64)
    (hrefused : decode r = .failed e r) (h : clubResponse tail short decode r = .done clubs s) :
    ∃ stop, Walks r (declaredClubs r) clubFirstElement clubs.length stop ∧
      s.position = roundUp (stop + tail clubs.length) := by
  unfold clubResponse at h
  dsimp only at h
  rw [Decoder.bind_of_done (Decoder.attempt_none.2 ⟨e, hrefused⟩)] at h
  obtain ⟨walkedEnd, t, hplace, h⟩ := Decoder.bind_done.1 h
  obtain ⟨-, rfl⟩ := Tape.place_done.1 hplace
  obtain ⟨_, t, hseek, h⟩ := Decoder.bind_done.1 h
  obtain ⟨-, hdata, hcount, -⟩ := seek_done.1 hseek
  have ht : SameBuffer r t := ⟨hdata, hcount⟩
  obtain ⟨walked, u, hwalk, h⟩ := Decoder.bind_done.1 h
  cases walked with
  | none => exact nomatch h
  | some walked =>
    obtain ⟨found, stop, incomplete⟩ := walked
    obtain ⟨declared, v, hdeclared, hwalk⟩ := Decoder.bind_done.1 (Decoder.attempt_some.1 hwalk)
    obtain ⟨hv, hdeclared, -⟩ := readAt_spec hdeclared
    have hv := ht.trans hv
    dsimp only at h
    split_ifs at h with hincomplete hlong
    · exact nomatch h
    · exact nomatch h
    · have hwalks := walkElements_spec (hv.1 ▸ hsize) hwalk (Bool.eq_false_iff.2 hincomplete)
      obtain ⟨_, w, hend, h⟩ := Decoder.bind_done.1 h
      obtain ⟨-, -, -, hposition⟩ := seek_done.1 hend
      obtain ⟨rfl, rfl⟩ := Decoder.pure_done.1 h
      have hlength : ∀ counts, (applyClubCounts found counts).length = found.length :=
        fun counts => List.length_map _
      refine ⟨stop, ?_, ?_⟩
      · rw [hdeclared, hdata] at hwalks
        rw [hlength]
        exact hwalks.congr hv
      · rw [hlength]
        exact hposition

/-- The start of an element of the record. -/
def clubStart (r : BitReader) (index : Nat) : Nat := elementStart r.data clubFirstElement index

/-- The response is decoded as a whole: every declared club is there, the reader stands behind all
of them, and where the codec decodes the record it stands where the codec ends. -/
structure DecodedWhole (decode : Reading BsnValue) (r s : BitReader) (clubs : List ClubSummary) :
    Prop where
  count : clubs.length = declaredClubs r
  behind : ∀ index < clubs.length, clubStart r (index + 1) ≤ s.position
  reflected : ∀ value t, decode r = .done value t → s.position = roundUp t.position

/-- Every declared element reads as a club; only the last one may have a longer tag, and only if the
tail of the record, counted from its start, reaches behind it. -/
def ReadsThrough (tail : Nat → Nat) (r : BitReader) : Prop :=
  ∀ index < declaredClubs r, NameReads r (clubStart r index) ∧
    (TagReads r (clubStart r index) ∨ index + 1 = declaredClubs r ∧
      clubStart r (index + 1) ≤ roundUp (clubStart r index + tail (declaredClubs r)))

theorem decodedWhole_iff {e : Error} (hsize : r.data.length < 2 ^ 64)
    (hrefused : decode r = .failed e r) (h : clubResponse tail short decode r = .done clubs s) :
    DecodedWhole decode r s clubs ↔ ReadsThrough tail r := by
  obtain ⟨stop, hwalks, hposition⟩ := clubResponse_done hsize hrefused h
  have hreflected : ∀ value t, decode r = .done value t → s.position = roundUp t.position := by
    intro value t hdone
    rw [hrefused] at hdone
    cases hdone
  rcases hwalks.ends with ⟨hcount, rfl, hall⟩ | ⟨hlt, hbad⟩ |
    ⟨last, hlast, hle, rfl, hbad, hnames, htags⟩
  · refine iff_of_true ⟨hcount, fun index hindex => ?_, hreflected⟩ fun index hindex => ?_
    · have hmono : clubStart r (index + 1) ≤ clubStart r clubs.length :=
        elementStart_mono r.data _ hindex
      rw [hposition]
      exact hmono.trans ((Nat.le_add_right _ _).trans (le_roundUp _))
    · have hclub := hall index (hcount ▸ hindex)
      exact ⟨hclub.1, Or.inl hclub.2⟩
  · refine iff_of_false (fun hwhole => ?_) fun hreads => ?_
    · exact absurd hwhole.count (Nat.ne_of_lt hlt)
    · exact hbad (hreads _ hlt).1
  · constructor
    · intro hwhole index hindex
      rw [← hwhole.count, hlast] at hindex
      refine ⟨hnames index (by omega), ?_⟩
      by_cases hindex' : index = last
      · have hbehind := hwhole.behind last (by omega)
        rw [hposition, hwhole.count] at hbehind
        rw [hindex']
        exact Or.inr ⟨hlast ▸ hwhole.count, hbehind⟩
      · exact Or.inl (htags index (by omega))
    · intro hreads
      obtain ⟨hcount, hbehind⟩ := (hreads last (by omega)).2.resolve_left hbad
      have hcount : clubs.length = declaredClubs r := hlast.trans hcount
      refine ⟨hcount, fun index hindex => ?_, hreflected⟩
      have hmono : clubStart r (index + 1) ≤ clubStart r (last + 1) :=
        elementStart_mono r.data _ (by omega)
      rw [hposition, hcount]
      exact hmono.trans hbehind

/-- A short tail does not reach behind an element. -/
theorem readsThrough_infoTail : ReadsThrough infoTail r ↔ ∀ index < declaredClubs r,
    NameReads r (clubStart r index) ∧ TagReads r (clubStart r index) := by
  refine forall₂_congr fun index _ => and_congr_right fun _ => ?_
  have hend : clubStart r index + 286 ≤ clubStart r (index + 1) := elementEnd_ge r.data _
  constructor
  · rintro (htag | ⟨-, hbehind⟩)
    · exact htag
    · rw [roundUp, infoTail] at hbehind
      omega
  · exact Or.inl

end response

/-- **When a club response is decoded as a whole.** The types of the responses are marked obfuscated
and have no layout, so the codec refuses them, and the walk alone says which clubs there are and
where the record ends. -/
theorem decodedWhole_clubs_iff (texts : TraceTexts) {codec : Codec} {typeId : UInt32}
    {shape : TypeShape} (hshape : codec.schema.shape typeId = .ok shape)
    (hmarked : shape.obfuscated = true) (hlayout : codec.wireLayouts[typeId]? = none) (fuel : Nat)
    {r : BitReader} (hsize : r.data.length < 2 ^ 64) :
    (∀ clubs s, clubSummaries (decodeFrom texts codec (fuel + 1) typeId) r = .done clubs s →
      (DecodedWhole (decodeFrom texts codec (fuel + 1) typeId) r s clubs ↔
        ReadsThrough summariesTail r)) ∧
    ∀ clubs s, clubInfo (decodeFrom texts codec (fuel + 1) typeId) r = .done clubs s →
      (DecodedWhole (decodeFrom texts codec (fuel + 1) typeId) r s clubs ↔
        ∀ index < declaredClubs r,
          NameReads r (clubStart r index) ∧ TagReads r (clubStart r index)) := by
  obtain ⟨e, hrefused⟩ := decodeFrom_refused texts codec fuel typeId hshape hmarked hlayout r
  constructor
  · intro clubs s h
    unfold clubSummaries at h
    exact decodedWhole_iff hsize hrefused h
  · intro clubs s h
    rw [← readsThrough_infoTail]
    unfold clubInfo at h
    exact decodedWhole_iff hsize hrefused h

/-! ## Runs -/

def responseShape : TypeShape where
  kind := .struct
  obfuscated := true
  valueRange := none
  elementType := none
  indexValues := []
  memberTypes := []
  memberNames := []
  names_length := TypeShape.no_names
  types_length := TypeShape.no_types .struct

/-- A codec that knows one type, that of the response. -/
def responseCodec : Codec := .fromSchema {
  knownTypeIds := [2049]
  name := fun _ => .ok (some "Battlenet::Client::Club::GetToonClubsResponse")
  lookup := fun _ => .ok responseShape }

/-- A record that declares one club, which has a name of one letter, no tag and no icon. -/
def oneClub : BitReader :=
  ⟨[0, 0, 1] ++ List.replicate 13 0 ++ [1, 65] ++ List.replicate 52 0, 560, 0, by decide,
    by decide⟩

/-- A record that declares one club, which has no name. -/
def namelessClub : BitReader := ⟨[0, 0, 1] ++ List.replicate 67 0, 560, 0, by decide, by decide⟩

def decodeResponse : Reading BsnValue := decodeFrom blankTexts responseCodec 1 2049

/-- The clubs of a response and where the reader is left. -/
def clubsRead : Outcome BitReader Error (List ClubSummary) → Option (List ClubSummary × Nat)
  | .done clubs s => some (clubs, s.position)
  | _ => none

theorem of_clubsRead {outcome : Outcome BitReader Error (List ClubSummary)}
    {clubs : List ClubSummary} {stop : Nat} (h : clubsRead outcome = some (clubs, stop)) :
    ∃ s, outcome = .done clubs s ∧ s.position = stop := by
  cases outcome with
  | done clubs' s =>
    obtain ⟨rfl, rfl⟩ := Prod.mk.inj (Option.some.inj h)
    exact ⟨s, rfl, rfl⟩
  | failed e s => exact nomatch h
  | unfinished => exact nomatch h

theorem decodedWhole_oneClub :
    ∃ clubs s, clubSummaries decodeResponse oneClub = .done clubs s ∧ clubs.length = 1 ∧
      DecodedWhole decodeResponse oneClub s clubs := by
  have hshape : responseCodec.schema.shape 2049 = .ok responseShape := rfl
  have hlayout : responseCodec.wireLayouts[(2049 : UInt32)]? = none := by
    simp [responseCodec, Codec.fromSchema]
  have hsize : oneClub.data.length < 2 ^ 64 := by decide
  have hrun : (clubsRead (clubSummaries decodeResponse oneClub)).map (·.1.length) = some 1 := by
    decide +kernel
  obtain ⟨⟨clubs, stop⟩, hrun, hlength⟩ := Option.map_eq_some_iff.1 hrun
  obtain ⟨s, hs, -⟩ := of_clubsRead hrun
  refine ⟨clubs, s, hs, hlength, ?_⟩
  refine ((decodedWhole_clubs_iff blankTexts hshape rfl hlayout 0 hsize).1 clubs s hs).2 ?_
  have hdeclared : declaredClubs oneClub = 1 := by decide +kernel
  have hfirst : NameReads oneClub (clubStart oneClub 0) ∧
      TagReads oneClub (clubStart oneClub 0) := by
    decide +kernel
  intro index hindex
  rw [hdeclared, Nat.lt_one_iff] at hindex
  rw [hindex]
  exact ⟨hfirst.1, Or.inl hfirst.2⟩

/-- A club without a name ends the list: the record declares one club, the response has none, and
the next record is looked for inside this one. -/
theorem not_decodedWhole_nameless :
    (∃ s, clubSummaries decodeResponse namelessClub = .done [] s ∧ s.position = 96 ∧
      ¬ DecodedWhole decodeResponse namelessClub s []) ∧
    ∃ s, clubInfo decodeResponse namelessClub = .done [] s ∧ s.position = 56 ∧
      ¬ DecodedWhole decodeResponse namelessClub s [] := by
  have hdeclared : declaredClubs namelessClub = 1 := by decide +kernel
  have hnot : ∀ s, ¬ DecodedWhole decodeResponse namelessClub s [] := by
    intro s hwhole
    exact absurd (hwhole.count.trans hdeclared) (by decide)
  have hsummaries : clubsRead (clubSummaries decodeResponse namelessClub) = some ([], 96) := by
    decide +kernel
  have hinfo : clubsRead (clubInfo decodeResponse namelessClub) = some ([], 56) := by
    decide +kernel
  obtain ⟨s, hs, hposition⟩ := of_clubsRead hsummaries
  obtain ⟨t, ht, hposition'⟩ := of_clubsRead hinfo
  exact ⟨⟨s, hs, hposition, hnot s⟩, t, ht, hposition', hnot t⟩

end Superiority.Native
