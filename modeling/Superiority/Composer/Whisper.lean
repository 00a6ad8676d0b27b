import Superiority.Composer.People

/-!
# The people offered and the people typed

The rows after `/w` and the pool that a typed line is split by come from the same list of people.
The rows filter it by the names it lists, clan tags included, and then keep the first of each
person; the pool keeps the first of each person unfiltered.

* **`agrees_iff`** – they offer the same people exactly when whoever is listed with a matching name
  is matched by the first listing of their person, too; and the line that a completed row leaves is
  always split at its name.
-/

namespace Superiority.Composer

open Sc2 (WhisperTarget)

variable (casing : Casing)

/-! ## Everybody who is listed -/

/-- A person where they are listed: by a name that may have a clan's tag in front. -/
structure Listed where
  name : Name
  peer : WhisperPeer

def listFriend (friend : UiFriend) : Listed := ⟨friend.name, friend.name, friend.target⟩

def listUser (user : UiUser) : Listed := ⟨user.name, user.bareName, memberTarget user⟩

def listWhispered (peer : Name) : Listed := ⟨peer, peer, .name (String.ofList peer)⟩

/-- Friends, then the people of the rooms, then those of the conversations. -/
def listed (tabs : List ChannelState) (friends : List UiFriend) (whispered : List Name) :
    List Listed :=
  friends.map listFriend ++ (tabs.flatMap (·.users)).map listUser ++ whispered.map listWhispered

def Listed.key (person : Listed) : Name := person.peer.key casing

/-- The first listing of each person. -/
def people (tabs : List ChannelState) (friends : List UiFriend) (whispered : List Name) :
    List Listed := firsts (Listed.key casing) (listed tabs friends whispered)

/-- The name that a member of the pool is matched by: the one it is listed with, or its bare one. -/
def Listed.judged (bare : Bool) (person : Listed) : Name :=
  if bare then person.peer.display else person.name

theorem whisperPool_eq_firsts (tabs : List ChannelState) (friends : List UiFriend)
    (whispered : List Name) : whisperPool casing tabs friends whispered =
      firsts (WhisperPeer.key casing) ((listed tabs friends whispered).map (·.peer)) := by
  rw [← kept_pushes_empty]
  simp only [whisperPool, listed, List.map_append, List.map_map, List.foldl_append,
    List.foldl_map, Function.comp_def]
  rfl

/-- The pool are the people. -/
theorem whisperPool_eq (tabs : List ChannelState) (friends : List UiFriend)
    (whispered : List Name) :
    whisperPool casing tabs friends whispered =
      (people casing tabs friends whispered).map (·.peer) := by
  rw [whisperPool_eq_firsts, firsts_map]
  rfl

/-- The rows before they are ordered. -/
def gatheredRows (tabs : List ChannelState) (active : Nat) (friends : List UiFriend)
    (whispered : List Name) (query : List Char) : List Ranked :=
  (friends.filter fun friend => matchesPerson casing friend.name query).map
      (friendRanked tabs active) ++
    tabs.zipIdx.flatMap (fun tab =>
      (tab.1.users.filter fun user => matchesPerson casing user.name query).map
        (memberRanked active tab.1 tab.2)) ++
    (whispered.filter fun peer => matchesPerson casing peer query).map whisperedRanked

theorem whisperCandidates_eq (tabs : List ChannelState) (active : Nat) (friends : List UiFriend)
    (whispered : List Name) (query : List Char) (limit : Nat) :
    whisperCandidates casing tabs active friends whispered query limit =
      rank casing (firsts (Ranked.key casing)
        (gatheredRows casing tabs active friends whispered query)) limit := by
  rw [← kept_pushes_empty]
  simp only [whisperCandidates, gatheredRows, List.foldl_append, List.foldl_flatMap,
    List.foldl_map]

/-- A row reaches who is listed, whatever it says of them. -/
theorem peers_gatheredRows (tabs : List ChannelState) (active : Nat) (friends : List UiFriend)
    (whispered : List Name) (query : List Char) :
    (gatheredRows casing tabs active friends whispered query).map (·.row.peer) =
      ((listed tabs friends whispered).filter fun person =>
        matchesPerson casing person.name query).map (·.peer) := by
  have hrooms (f : ChannelState → List WhisperPeer) :
      tabs.zipIdx.flatMap (fun tab => f tab.1) = tabs.flatMap f := by
    rw [← List.flatMap_map, List.zipIdx_map_fst]
  simp only [gatheredRows, listed, List.map_append, List.filter_append, List.filter_map,
    List.map_map, List.map_flatMap, List.filter_flatMap]
  congr 1
  congr 1
  exact hrooms fun tab => (tab.users.filter fun user =>
    matchesPerson casing user.name query).map fun user => (listUser user).peer

/-- The rows, in an order of their own, are the first of each person among those whose listed name
matches. -/
theorem whisperCandidates_perm {tabs : List ChannelState} {active : Nat} {friends : List UiFriend}
    {whispered : List Name} {query : List Char} {limit : Nat}
    (hlimit : (listed tabs friends whispered).length ≤ limit) :
    ((whisperCandidates casing tabs active friends whispered query limit).map
      PersonRow.peer).Perm
      ((firsts (Listed.key casing) ((listed tabs friends whispered).filter fun person =>
        matchesPerson casing person.name query)).map (·.peer)) := by
  have hpeers : (firsts (Ranked.key casing)
      (gatheredRows casing tabs active friends whispered query)).map (·.row.peer) =
      (firsts (Listed.key casing) ((listed tabs friends whispered).filter fun person =>
        matchesPerson casing person.name query)).map (·.peer) := by
    have hrows := firsts_map (WhisperPeer.key casing) (fun ranked : Ranked => ranked.row.peer)
      (gatheredRows casing tabs active friends whispered query)
    rw [peers_gatheredRows, firsts_map] at hrows
    exact hrows.symm
  have hlength : (firsts (Ranked.key casing)
      (gatheredRows casing tabs active friends whispered query)).length ≤ limit := by
    have hle := ((firsts_sublist (Listed.key casing) _).trans
      (List.filter_sublist (p := fun person => matchesPerson casing person.name query)
        (l := listed tabs friends whispered))).length_le
    have heq := congrArg List.length hpeers
    rw [List.length_map, List.length_map] at heq
    exact heq ▸ hle.trans hlimit
  rw [whisperCandidates_eq, ← hpeers, rank, List.take_of_length_le (by simpa using hlength),
    List.map_map]
  exact (List.mergeSort_perm _ _).map _

/-! ## Matching -/

theorem spanFrom_isSome_cons {query : List Char} {start : Nat} {letter : Char}
    {rest : List Char} : (spanFrom casing query start (letter :: rest)).isSome = true ↔
      (spanAt casing (letter :: rest) query).isSome = true ∨
        (spanFrom casing query (start + letter.utf8Size) rest).isSome = true := by
  rw [spanFrom]
  cases spanAt casing (letter :: rest) query <;> simp

/-- Where a text starts does not matter for what is found in it. -/
theorem spanFrom_isSome_shift {query text : List Char} {start start' : Nat}
    (h : (spanFrom casing query start text).isSome = true) :
    (spanFrom casing query start' text).isSome = true := by
  induction text generalizing start start' with
  | nil => exact h
  | cons letter rest ih =>
    rw [spanFrom_isSome_cons] at h ⊢
    exact h.imp_right ih

theorem matchesPerson_of_suffix {name part : Name} {query : List Char} (h : part <:+ name)
    (hpart : matchesPerson casing part query = true) :
    matchesPerson casing name query = true := by
  have hspan (start : Nat) (hpart : (spanFrom casing (trimmed query) start part).isSome = true) :
      (spanFrom casing (trimmed query) start name).isSome = true := by
    obtain ⟨front, rfl⟩ := h
    induction front generalizing start with
    | nil => exact hpart
    | cons letter front ih =>
      rw [List.cons_append, spanFrom_isSome_cons]
      exact .inr (ih _ (spanFrom_isSome_shift casing hpart))
  unfold matchesPerson matchSpan at hpart ⊢
  by_cases hempty : (trimmed query).isEmpty = true
  · simp [hempty]
  · simp only [hempty, Bool.false_or, Bool.false_eq_true, if_false] at hpart ⊢
    exact hspan 0 hpart

theorem bareName_suffix (user : UiUser) : user.bareName <:+ user.name := by
  unfold UiUser.bareName
  cases htag : user.clanTag with
  | none => exact List.suffix_refl _
  | some tag =>
    rw [Option.bind_some]
    cases hdrop : user.name.dropPrefix? ('<' :: tag ++ ['>', ' ']) with
    | none => exact List.suffix_refl _
    | some rest =>
      obtain ⟨front, heq, -⟩ := List.dropPrefix?_eq_some_iff.1 hdrop
      exact ⟨front, heq.symm⟩

theorem display_suffix {tabs : List ChannelState} {friends : List UiFriend}
    {whispered : List Name} {person : Listed} (h : person ∈ listed tabs friends whispered) :
    person.peer.display <:+ person.name := by
  simp only [listed, List.mem_append, List.mem_map] at h
  obtain (⟨friend, -, rfl⟩ | ⟨user, -, rfl⟩) | ⟨peer, -, rfl⟩ := h
  · exact List.suffix_refl _
  · exact bareName_suffix user
  · exact List.suffix_refl _

/-! ## Splitting -/

/-- The greatest of the lengths that gives something decides. -/
theorem findSome?_reverse_of_greatest {α : Type} {lengths : List Nat}
    (hsorted : lengths.Pairwise (· < ·)) {f : Nat → Option α} {n : Nat} {value : α}
    (hn : n ∈ lengths) (hvalue : f n = some value)
    (hgreater : ∀ m ∈ lengths, n < m → f m = none) :
    lengths.reverse.findSome? f = some value := by
  obtain ⟨front, back, rfl⟩ := List.append_of_mem hn
  have hback : back.reverse.findSome? f = none := by
    refine List.findSome?_eq_none_iff.2 fun m hm => ?_
    rw [List.mem_reverse] at hm
    have hlt : n < m := (List.pairwise_cons.1 (List.pairwise_append.1 hsorted).2.1).1 m hm
    exact hgreater m (List.mem_append_right _ (List.mem_cons_of_mem _ hm)) hlt
  simp [List.findSome?_append, hback, hvalue]

theorem mem_nameLengths {query : List Char} {end_ : Nat} : end_ ∈ nameLengths query ↔
    (end_ < query.length ∧ (query[end_]?).any isWhitespace = true) ∨ end_ = query.length := by
  simp [nameLengths]

theorem nameLengths_sorted (query : List Char) : (nameLengths query).Pairwise (· < ·) := by
  unfold nameLengths
  rw [List.pairwise_append]
  refine ⟨List.pairwise_lt_range.filter _, List.pairwise_singleton _ _, fun a ha b hb => ?_⟩
  have hlt : a < query.length := List.mem_range.1 (List.mem_filter.1 ha).1
  rwa [List.mem_singleton.1 hb]

/-- The places where a name can end in a trimmed line are such places of the line. -/
theorem nameLengths_of_trimEnd {front rest : List Char} {end_ : Nat}
    (h : end_ ∈ nameLengths (front ++ trimEnd rest)) : end_ ∈ nameLengths (front ++ rest) := by
  have hwhole : front ++ rest =
      (front ++ trimEnd rest) ++ rest.rtakeWhile isWhitespace := by
    rw [List.append_assoc, trimEnd, List.rdropWhile_append_rtakeWhile]
  rw [hwhole]
  rw [mem_nameLengths] at h ⊢
  obtain ⟨hlt, hwhite⟩ | rfl := h
  · refine .inl ⟨?_, ?_⟩
    · rw [List.length_append]
      omega
    · rwa [List.getElem?_append_left hlt]
  · cases hafter : rest.rtakeWhile isWhitespace with
    | nil => exact .inr (by simp)
    | cons c after =>
      have hc : isWhitespace c = true :=
        List.mem_rtakeWhile_imp (hafter ▸ List.mem_cons_self : c ∈ rest.rtakeWhile isWhitespace)
      refine .inl ⟨by simp, ?_⟩
      rw [List.getElem?_append_right (Nat.le_refl _)]
      simpa using hc

theorem mem_nameLengths_le {query : List Char} {end_ : Nat} (h : end_ ∈ nameLengths query) :
    end_ ≤ query.length := by
  rw [mem_nameLengths] at h
  omega

theorem take_trimEnd {front rest : List Char} {end_ : Nat}
    (h : end_ ∈ nameLengths (front ++ trimEnd rest)) :
    (front ++ trimEnd rest).take end_ = (front ++ rest).take end_ := by
  have hwhole : front ++ rest =
      (front ++ trimEnd rest) ++ rest.rtakeWhile isWhitespace := by
    rw [List.append_assoc, trimEnd, List.rdropWhile_append_rtakeWhile]
  rw [hwhole, List.take_append_of_le_length (mem_nameLengths_le h)]

/-- A line that goes on after a name does not name the same person. -/
theorem sameName_longer {name more : List Char} {end_ : Nat} (hgreater : name.length < end_)
    (hle : end_ ≤ (name ++ more).length) :
    sameName casing name ((name ++ more).take end_) = false := by
  have htake : (name ++ more).take end_ = name ++ more.take (end_ - name.length) := by
    rw [List.take_append, List.take_of_length_le hgreater.le]
  have hne : more.take (end_ - name.length) ≠ [] := by
    rw [List.length_append] at hle
    rw [← List.length_pos_iff, List.length_take]
    omega
  rw [htake]
  exact decide_eq_false (casing.toLowercase_append_ne hne)

/-- Nothing longer than the name of the person names someone else. -/
def Unambiguous (pool : List WhisperPeer) (peer : WhisperPeer) (line : List Char) : Prop :=
  ∀ end_ ∈ nameLengths line, peer.display.length < end_ →
    ∀ other ∈ pool, other ≠ peer → sameName casing other.display (line.take end_) = false

theorem splitWhisper_completed {tabs : List ChannelState} {friends : List UiFriend}
    {whispered : List Name} {peer : WhisperPeer}
    (hpeer : peer ∈ whisperPool casing tabs friends whispered)
    (htrimmed : trimmed peer.display = peer.display) (hne : peer.display ≠ [])
    {body : List Char} (hline : Unambiguous casing (whisperPool casing tabs friends whispered) peer
      (peer.display ++ ' ' :: body)) :
    splitWhisper casing tabs friends whispered (peer.display ++ ' ' :: body) =
      some (peer, trimmed body) := by
  have hspace : isWhitespace ' ' = true := by decide
  have hquery := trimmed_append htrimmed hne (' ' :: body)
  have hbody : trimStart (trimEnd (' ' :: body)) = trimmed body := by
    rw [trimStart_trimEnd, trimmed_cons_of_whitespace hspace]
  -- a name can end where the name of the person does
  have hend : peer.display.length ∈ nameLengths (peer.display ++ trimEnd (' ' :: body)) := by
    rw [mem_nameLengths, trimEnd_cons]
    by_cases hnil : trimEnd body = []
    · simp [hnil, hspace]
    · simp [hnil, hspace]
  have hnamed : (whisperPool casing tabs friends whispered).find? (fun other =>
      sameName casing other.display peer.display) = some peer := by
    rw [whisperPool_eq_firsts] at hpeer ⊢
    exact find?_firsts hpeer
  have hsplit : (nameLengths (peer.display ++ trimEnd (' ' :: body))).reverse.findSome?
      (fun end_ => ((whisperPool casing tabs friends whispered).find? fun other =>
        sameName casing other.display
          ((peer.display ++ trimEnd (' ' :: body)).take end_)).map fun other =>
        (other, trimStart ((peer.display ++ trimEnd (' ' :: body)).drop end_))) =
      some (peer, trimmed body) := by
    refine findSome?_reverse_of_greatest (nameLengths_sorted _) hend ?_ ?_
    · simp [hnamed, hbody]
    · intro end_ hmem hgreater
      have htake := take_trimEnd hmem
      rw [Option.map_eq_none_iff, List.find?_eq_none]
      intro other hother
      rw [htake, Bool.not_eq_true]
      by_cases hsame : other = peer
      · rw [hsame]
        exact sameName_longer casing hgreater (mem_nameLengths_le (nameLengths_of_trimEnd hmem))
      · exact hline end_ (nameLengths_of_trimEnd hmem) hgreater other hother hsame
  unfold splitWhisper
  simp only [hquery]
  rw [hsplit]
  simp [hne]

/-! ## The two lists -/

/-- What is offered after `/w` and what is typed there are the same people. -/
structure Agrees (tabs : List ChannelState) (active : Nat) (friends : List UiFriend)
    (whispered : List Name) (query : List Char) (bare : Bool) : Prop where
  offered : ∀ limit, (listed tabs friends whispered).length ≤ limit →
    ((whisperCandidates casing tabs active friends whispered query limit).map
      PersonRow.peer).Perm
      (((people casing tabs friends whispered).filter fun person =>
        matchesPerson casing (person.judged bare) query).map (·.peer))
  typed : ∀ peer ∈ whisperPool casing tabs friends whispered, trimmed peer.display = peer.display →
    peer.display ≠ [] → ∀ body, Unambiguous casing (whisperPool casing tabs friends whispered) peer
      (peer.display ++ ' ' :: body) →
    splitWhisper casing tabs friends whispered (peer.display ++ ' ' :: body) =
      some (peer, trimmed body)

/-- **Offering and typing.** The people offered are those typed exactly when whoever is listed with
a name that matches is matched by the first listing of their person. -/
theorem agrees_iff (tabs : List ChannelState) (active : Nat) (friends : List UiFriend)
    (whispered : List Name) (query : List Char) (bare : Bool) :
    Agrees casing tabs active friends whispered query bare ↔
      ∀ person ∈ listed tabs friends whispered, matchesPerson casing person.name query = true →
        ∀ first ∈ people casing tabs friends whispered, first.key casing = person.key casing →
          matchesPerson casing (first.judged bare) query = true := by
  have hjudged : ∀ person ∈ listed tabs friends whispered,
      matchesPerson casing (person.judged bare) query = true →
        matchesPerson casing person.name query = true := by
    intro person hperson hmatches
    cases bare with
    | false => exact hmatches
    | true => exact matchesPerson_of_suffix casing (display_suffix hperson) hmatches
  rw [people, ← firsts_filter_perm_iff (Listed.key casing) hjudged (·.peer)
    (WhisperPeer.key casing) (fun _ => rfl)]
  constructor
  · intro h
    exact (whisperCandidates_perm casing (Nat.le_refl _)).symm.trans (h.offered _ (Nat.le_refl _))
  · intro hperm
    refine ⟨fun limit hlimit => (whisperCandidates_perm casing hlimit).trans hperm, ?_⟩
    intro peer hpeer htrimmed hne body hline
    exact splitWhisper_completed casing hpeer htrimmed hne hline

/-- The lower case of ASCII. -/
def ascii : Casing where
  lower c := [c.toLower]
  lower_ne_nil _ := List.cons_ne_nil _ _
  finalSigma _ _ := false

/-- The members of the room General. -/
def novaTabs : List ChannelState :=
  [⟨"General", [⟨"<X> Nova".toList, some 7, some ['X'], .available, none, false⟩]⟩]

def novaFriends : List UiFriend := [⟨"Nova".toList, .available, none, .account 1⟩]

/-- A friend, and a member of a room who has the friend's name behind a clan's tag: looked for by
the tag, the member is offered, and a whisper that is typed goes to the friend. -/
theorem not_agrees : ¬ Agrees ascii novaTabs 0 novaFriends [] ['X'] false ∧
    ¬ Agrees ascii novaTabs 0 novaFriends [] ['X'] true := by
  have hlength (bare : Bool) (h : Agrees ascii novaTabs 0 novaFriends [] ['X'] bare) :=
    ((whisperCandidates_perm ascii (by decide +kernel)).symm.trans
      (h.offered 2 (by decide +kernel))).length_eq
  constructor
  · intro h
    have hfalse := hlength false h
    revert hfalse
    decide +kernel
  · intro h
    have htrue := hlength true h
    revert htrue
    decide +kernel

end Superiority.Composer
