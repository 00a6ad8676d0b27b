import Mathlib.Algebra.Order.BigOperators.Group.List
import Superiority.Desktop.Preferences
import Superiority.Library.Map
import Superiority.Library.Run

/-!
# Preferences read back

What is saved as lines is read back when the lines hold no line feed of their own and none but the
last ends with a carriage return.

* **`storedNames_iff`** – the exact condition for the group names, over any sequence of names, and
  for the open channels; the stores of both systems answer alike.
-/

namespace Superiority.Desktop

open Std

/-! ## Numbers -/

theorem digit_of_mem_toDigits {n : Nat} {c : Char} (h : c ∈ Nat.toDigits 10 n) :
    c.isDigit = true :=
  Nat.isDigit_of_mem_toDigits (by decide) (by decide) h

theorem not_mem_toDigits {n : Nat} {c : Char} (h : c.isDigit = false) : c ∉ Nat.toDigits 10 n := by
  intro hmem
  rw [digit_of_mem_toDigits hmem] at h
  exact Bool.noConfusion h

theorem dropPlus_of_not_mem {text : List Char} (h : '+' ∉ text) : dropPlus text = text := by
  unfold dropPlus
  split
  · exact absurd List.mem_cons_self h
  · rfl

theorem parseUnsigned_toDigits {limit n : Nat} (h : n < limit) :
    parseUnsigned limit (Nat.toDigits 10 n) = some n := by
  have hall : (Nat.toDigits 10 n).all Char.isDigit = true :=
    List.all_eq_true.2 fun c hc => digit_of_mem_toDigits hc
  rw [parseUnsigned, dropPlus_of_not_mem (not_mem_toDigits (by decide))]
  simp only [Nat.ofDigitChars_ten_toDigits]
  rw [if_pos ⟨Nat.toDigits_ne_nil, hall, h⟩]

/-- A number does not end with a carriage return. -/
theorem chomp_toDigits (front : List Char) (n : Nat) :
    chomp '\r' (front ++ Nat.toDigits 10 n) = front ++ Nat.toDigits 10 n := by
  rw [chomp_append front Nat.toDigits_ne_nil, chomp_of_getLast?_ne]
  intro hlast
  exact not_mem_toDigits (by decide) (List.mem_of_getLast? hlast)

/-! ## Channels -/

theorem dropPrefix?_self (mark text : List Char) : (mark ++ text).dropPrefix? mark = some text :=
  List.dropPrefix?_append_of_beq text (BEq.refl mark)

/-- The private channel of a name that is not empty. -/
def privateOf (name : List Char) : Option ChatChannel :=
  if name = [] then none else some (.private_ (String.ofList name))

theorem parseChannel_public (identifier : UInt16) :
    parseChannel (serializeChannel (.public_ identifier)) = some (.public_ identifier) := by
  have hparse := parseUnsigned_toDigits identifier.toNat_lt
  simp only [parseChannel, serializeChannel, dropPrefix?_self, hparse, Option.map_some,
    UInt16.ofNat_toNat]

theorem parseChannel_club (clubId : UInt32) :
    parseChannel (serializeChannel (.club clubId)) = some (.club clubId) := by
  have hparse := parseUnsigned_toDigits clubId.toNat_lt
  have hpublic : (clubMark ++ Nat.toDigits 10 clubId.toNat).dropPrefix? publicMark = none := rfl
  simp only [parseChannel, serializeChannel, hpublic, dropPrefix?_self, hparse, Option.map_some,
    UInt32.ofNat_toNat]

theorem parseChannel_private (name : List Char) :
    parseChannel (privateMark ++ name) = privateOf name := by
  have hpublic : (privateMark ++ name).dropPrefix? publicMark = none := rfl
  have hclub : (privateMark ++ name).dropPrefix? clubMark = none := rfl
  simp only [parseChannel, hpublic, hclub, dropPrefix?_self, privateOf]
  by_cases hname : name = [] <;> simp [hname]

theorem parseChannel_party : parseChannel (serializeChannel .party) = none := rfl

/-- A private channel that is read has a name of the line. -/
theorem private_of_parseChannel {line : List Char} {name : String}
    (h : parseChannel line = some (.private_ name)) : name ≠ "" ∧ name.toList ⊆ line := by
  unfold parseChannel at h
  split at h
  · simp at h
  · split at h
    · simp at h
    · simp only [Option.map_eq_some_iff, Option.filter_eq_some_iff, ChatChannel.private_.injEq] at h
      obtain ⟨text, ⟨hinitial, htext⟩, rfl⟩ := h
      obtain ⟨mark, rfl, -⟩ := List.dropPrefix?_eq_some_iff.1 hinitial
      rw [String.toList_ofList]
      refine ⟨?_, List.subset_append_right mark text⟩
      rw [Ne, String.ofList_eq_empty_iff]
      simpa using htext

/-- What the line of a channel is read as. -/
def intact : ChatChannel → Option ChatChannel
  | .private_ name => privateOf name.toList
  | .party => none
  | channel => some channel

/-- What the line of a channel is read as that a line feed follows. -/
def worn : ChatChannel → Option ChatChannel
  | .private_ name => privateOf (chomp '\r' name.toList)
  | .party => none
  | channel => some channel

theorem parseChannel_serialize (channel : ChatChannel) :
    parseChannel (serializeChannel channel) = intact channel := by
  cases channel with
  | public_ identifier => exact parseChannel_public identifier
  | private_ name => exact parseChannel_private name.toList
  | club clubId => exact parseChannel_club clubId
  | party => rfl

theorem parseChannel_chomp (channel : ChatChannel) :
    parseChannel (chomp '\r' (serializeChannel channel)) = worn channel := by
  cases channel with
  | public_ identifier =>
    rw [serializeChannel, chomp_toDigits]
    exact parseChannel_public identifier
  | private_ name =>
    rw [serializeChannel]
    by_cases hname : name.toList = []
    · rw [hname]
      simp [worn, hname]
      rfl
    · rw [chomp_append _ hname]
      exact parseChannel_private _
  | club clubId =>
    rw [serializeChannel, chomp_toDigits]
    exact parseChannel_club clubId
  | party => rfl

theorem serializeChannel_ne_nil (channel : ChatChannel) : serializeChannel channel ≠ [] := by
  cases channel <;> simp [serializeChannel, publicMark, privateMark, clubMark, partyText]

theorem newline_not_mem_serialize {channel : ChatChannel}
    (h : ∀ name, channel = .private_ name → '\n' ∉ name.toList) :
    '\n' ∉ serializeChannel channel := by
  cases channel with
  | public_ identifier =>
    have hdigits : '\n' ∉ Nat.toDigits 10 identifier.toNat := not_mem_toDigits (by decide)
    simp [serializeChannel, publicMark, hdigits]
  | private_ name => simpa [serializeChannel, privateMark] using h name rfl
  | club clubId =>
    have hdigits : '\n' ∉ Nat.toDigits 10 clubId.toNat := not_mem_toDigits (by decide)
    simp [serializeChannel, clubMark, hdigits]
  | party => decide

/-- The lines of channels without a line feed in their names. -/
theorem readChannels_join {channels : List ChatChannel} {last : ChatChannel}
    (h : ∀ name, .private_ name ∈ channels ++ [last] → '\n' ∉ name.toList) :
    readChannels (joinLines ((channels ++ [last]).map serializeChannel)) =
      unique (channels.filterMap worn ++ (intact last).toList) := by
  have hlines : readLines (joinLines ((channels ++ [last]).map serializeChannel)) =
      (channels.map serializeChannel).map (chomp '\r') ++ [serializeChannel last] := by
    rw [List.map_append, List.map_singleton]
    refine lines_intercalate ?_ (serializeChannel_ne_nil last)
    intro text htext
    rw [← List.map_singleton, ← List.map_append, List.mem_map] at htext
    obtain ⟨channel, hmem, rfl⟩ := htext
    apply newline_not_mem_serialize
    rintro name rfl
    exact h name hmem
  have hworn : (parseChannel ∘ chomp '\r') ∘ serializeChannel = worn := by
    funext channel
    exact parseChannel_chomp channel
  rw [readChannels, hlines, List.filterMap_append, List.filterMap_map, List.filterMap_map, hworn]
  congr 2
  simp only [List.filterMap_cons, List.filterMap_nil, parseChannel_serialize]
  cases intact last <;> rfl

/-! ## Channels without repetitions -/

theorem unique_append (channels : List ChatChannel) (channel : ChatChannel) :
    unique (channels ++ [channel]) =
      if channel ∈ unique channels then unique channels else unique channels ++ [channel] :=
  List.foldl_concat ..

@[simp] theorem mem_unique {channels : List ChatChannel} {channel : ChatChannel} :
    channel ∈ unique channels ↔ channel ∈ channels := by
  induction channels using List.reverseRecOn with
  | nil => simp [unique]
  | append_singleton channels last ih =>
    rw [unique_append]
    split
    · rename_i hlast
      rw [List.mem_append, List.mem_singleton, ih]
      constructor
      · exact Or.inl
      · rintro (h | rfl)
        · exact h
        · exact ih.1 hlast
    · simp [ih]

theorem length_unique_le (channels : List ChatChannel) :
    (unique channels).length ≤ channels.length := by
  induction channels using List.reverseRecOn with
  | nil => simp [unique]
  | append_singleton channels last ih =>
    rw [unique_append]
    split
    · simp
      omega
    · simpa using ih

/-! ## What is claimed of the channels -/

/-- The first channels that are not the party's, without repetitions, or else the default. -/
def expectedChannels (channels : List ChatChannel) (defaultChannel : UInt16) :
    List ChatChannel :=
  let kept := unique ((channels.take maxJoinedChannels).filter (· ≠ .party))
  if kept = [] then [.public_ defaultChannel] else kept

/-- Among the first channels no private name is empty or holds a line feed, and none but the last
channel's ends with a carriage return. -/
def Readable (channels : List ChatChannel) : Prop :=
  (∀ name, .private_ name ∈ channels.take maxJoinedChannels →
    name ≠ "" ∧ '\n' ∉ name.toList) ∧
  ∀ name, .private_ name ∈ (channels.take maxJoinedChannels).dropLast →
    name.toList.getLast? ≠ some '\r'

theorem privateOf_eq_some {name : List Char} {channel : ChatChannel} :
    privateOf name = some channel ↔ name ≠ [] ∧ channel = .private_ (String.ofList name) := by
  unfold privateOf
  split <;> simp_all [eq_comm]

theorem intact_of_name {channel : ChatChannel}
    (h : ∀ name, channel = .private_ name → name ≠ "") :
    intact channel = if channel ≠ .party then some channel else none := by
  cases channel with
  | private_ name =>
    have hname : name.toList ≠ [] := by simpa using h name rfl
    simp [intact, privateOf, hname]
  | _ => simp [intact]

theorem worn_eq_intact {channel : ChatChannel}
    (h : ∀ name, channel = .private_ name → name.toList.getLast? ≠ some '\r') :
    worn channel = intact channel := by
  cases channel with
  | private_ name => rw [worn, chomp_of_getLast?_ne (h name rfl), intact]
  | _ => rfl

theorem filterMap_ite (channels : List ChatChannel) :
    channels.filterMap (fun channel => if channel ≠ .party then some channel else none) =
      channels.filter (· ≠ .party) := by
  rw [← List.filterMap_eq_filter]
  congr 1
  funext channel
  simp [Option.guard]

/-- Readable channels are read back. -/
theorem readChannels_of_readable {channels : List ChatChannel}
    (hname : ∀ name, .private_ name ∈ channels → name ≠ "" ∧ '\n' ∉ name.toList)
    (hend : ∀ name, .private_ name ∈ channels.dropLast → name.toList.getLast? ≠ some '\r') :
    readChannels (joinLines (channels.map serializeChannel)) =
      unique (channels.filter (· ≠ .party)) := by
  cases channels using List.reverseRecOn with
  | nil => rfl
  | append_singleton channels last =>
    rw [List.dropLast_concat] at hend
    have hintact : ∀ channel ∈ channels ++ [last],
        intact channel = if channel ≠ .party then some channel else none := by
      intro channel hmem
      apply intact_of_name
      rintro name rfl
      exact (hname name hmem).1
    have hworn : channels.filterMap worn = channels.filter (· ≠ .party) := by
      rw [← filterMap_ite]
      apply List.filterMap_congr
      intro channel hmem
      rw [← hintact channel (List.mem_append_left _ hmem)]
      apply worn_eq_intact
      rintro name rfl
      exact hend name hmem
    rw [readChannels_join fun name hmem => (hname name hmem).2, hworn,
      hintact last (by simp), List.filter_append]
    congr 2
    by_cases hlast : last = .party <;> simp [hlast]

theorem private_of_mem_readChannels {value : List Char} {name : String}
    (h : .private_ name ∈ readChannels value) : name ≠ "" ∧ '\n' ∉ name.toList := by
  rw [readChannels, mem_unique, List.mem_filterMap] at h
  obtain ⟨line, hline, hparse⟩ := h
  obtain ⟨hne, hsub⟩ := private_of_parseChannel hparse
  exact ⟨hne, fun hmem => not_mem_of_mem_lines hline (hsub hmem)⟩

/-- A name that loses a carriage return is read back only from the last line or from a name with
one more. -/
theorem longer_of_read {channels : List ChatChannel} {last : ChatChannel} {name : String}
    (hread : .private_ name ∈ channels.filterMap worn ++ (intact last).toList)
    (hmem : .private_ name ∈ channels) (hnodup : (channels ++ [last]).Nodup)
    (hend : name.toList.getLast? = some '\r') :
    .private_ (String.ofList (name.toList ++ ['\r'])) ∈ channels := by
  rcases List.mem_append.1 hread with hread | hread
  · obtain ⟨channel, hchannel, hworn⟩ := List.mem_filterMap.1 hread
    cases channel with
    | private_ other =>
      obtain ⟨-, heq⟩ := privateOf_eq_some.1 hworn
      have heq : name.toList = chomp '\r' other.toList := by
        rw [ChatChannel.private_.inj heq, String.toList_ofList]
      by_cases hother : other.toList.getLast? = some '\r'
      · have hsplit : name.toList ++ ['\r'] = other.toList := by
          rw [heq, chomp, if_pos hother]
          exact List.dropLast_append_getLast? _ hother
        rwa [hsplit, String.ofList_toList]
      · rw [heq, chomp_of_getLast?_ne hother] at hend
        exact absurd hend hother
    | _ => simp [worn] at hworn
  · cases last with
    | private_ other =>
      obtain ⟨-, heq⟩ := privateOf_eq_some.1 (Option.mem_toList.1 hread)
      rw [String.ofList_toList] at heq
      rw [heq] at hmem
      exact (List.disjoint_of_nodup_append hnodup hmem (by simp)).elim
    | _ => simp [intact] at hread

/-- Without repetitions no name but the last may end with a carriage return, for it would have to
be read back from a longer one, and so on. -/
theorem end_of_read {channels : List ChatChannel} {last : ChatChannel}
    (hread : ∀ name, .private_ name ∈ channels →
      .private_ name ∈ channels.filterMap worn ++ (intact last).toList)
    (hnodup : (channels ++ [last]).Nodup) {name : String} (hmem : .private_ name ∈ channels) :
    name.toList.getLast? ≠ some '\r' := by
  intro hend
  have hlonger : ∀ count, .private_ (String.ofList
      (name.toList ++ List.replicate count '\r')) ∈ channels := by
    intro count
    induction count with
    | zero => simpa using hmem
    | succ count ih =>
      have hlast : (String.ofList (name.toList ++ List.replicate count '\r')).toList.getLast? =
          some '\r' := by
        rw [String.toList_ofList]
        cases count with
        | zero => simpa using hend
        | succ count => simp [List.replicate_succ']
      have := longer_of_read (hread _ ih) ih hnodup hlast
      rwa [String.toList_ofList, List.append_assoc, ← List.replicate_succ'] at this
  -- more channels than there are
  have hsub : (List.range (channels.length + 1)).map (fun count =>
      ChatChannel.private_ (String.ofList (name.toList ++ List.replicate count '\r'))) ⊆
      channels := by
    intro channel hchannel
    obtain ⟨count, -, rfl⟩ := List.mem_map.1 hchannel
    exact hlonger count
  have hdistinct : ((List.range (channels.length + 1)).map (fun count =>
      ChatChannel.private_ (String.ofList
        (name.toList ++ List.replicate count '\r')))).Nodup := by
    refine List.Nodup.map ?_ List.nodup_range
    intro count other heq
    have := congrArg String.toList (ChatChannel.private_.inj heq)
    rw [String.toList_ofList, String.toList_ofList, List.append_cancel_left_eq] at this
    simpa using congrArg List.length this
  have hlen := (List.subperm_of_subset hdistinct hsub).length_le
  simp at hlen

namespace Backend

variable {σ : Type} (b : Backend σ)

/-- The catalogue of public channels has been migrated. -/
def Current (s : σ) : Prop :=
  ¬ (b.integer s channelCatalogVersionKey).getD 0 < channelCatalogVersion

theorem loadOpenChannels_save {s : σ} (h : b.Current s) (channels : List ChatChannel)
    (defaultChannel : UInt16) :
    (b.loadOpenChannels defaultChannel (b.saveOpenChannels channels s)).1 =
      let kept := (readChannels (joinLines
        ((channels.take maxJoinedChannels).map serializeChannel))).take maxJoinedChannels
      if kept = [] then [.public_ defaultChannel] else kept := by
  have hversion : ¬ (b.integer (b.saveOpenChannels channels s)
      channelCatalogVersionKey).getD 0 < channelCatalogVersion := by
    rw [saveOpenChannels, b.integer_saveString, if_neg (by decide)]
    exact h
  have hstored : b.string (b.saveOpenChannels channels s) openChannelsKey =
      some (joinLines ((channels.take maxJoinedChannels).map serializeChannel)) := by
    rw [saveOpenChannels, b.string_saveString, if_pos rfl]
  simp only [loadOpenChannels, if_neg hversion, hstored, Option.some_or, Option.map_some,
    Option.getD_some]

/-- The open channels that were saved are loaded. -/
def ChannelsBack (s : σ) (channels : List ChatChannel) (defaultChannel : UInt16) : Prop :=
  (b.loadOpenChannels defaultChannel (b.saveOpenChannels channels s)).1 =
    expectedChannels channels defaultChannel

theorem channelsBack_of_readable {s : σ} (h : b.Current s) {channels : List ChatChannel}
    (hreadable : Readable channels) (defaultChannel : UInt16) :
    b.ChannelsBack s channels defaultChannel := by
  have hlen : (unique ((channels.take maxJoinedChannels).filter (· ≠ .party))).length ≤
      maxJoinedChannels :=
    (length_unique_le _).trans ((List.length_filter_le ..).trans (List.length_take_le ..))
  rw [ChannelsBack, b.loadOpenChannels_save h,
    readChannels_of_readable hreadable.1 hreadable.2]
  dsimp only
  rw [List.take_of_length_le hlen]
  rfl

/-- Every private name among the first channels has been read. -/
theorem mem_read_of_channelsBack {s : σ} (h : b.Current s) {channels : List ChatChannel}
    {defaultChannel : UInt16} (hback : b.ChannelsBack s channels defaultChannel) {name : String}
    (hmem : .private_ name ∈ channels.take maxJoinedChannels) :
    .private_ name ∈ readChannels (joinLines
      ((channels.take maxJoinedChannels).map serializeChannel)) := by
  have hexpected : .private_ name ∈ expectedChannels channels defaultChannel := by
    have hkept : .private_ name ∈ unique ((channels.take maxJoinedChannels).filter (· ≠ .party)) := by
      simp [hmem]
    rw [expectedChannels, if_neg (List.ne_nil_of_mem hkept)]
    exact hkept
  rw [← hback, b.loadOpenChannels_save h] at hexpected
  dsimp only at hexpected
  split at hexpected
  · simp at hexpected
  · exact List.mem_of_mem_take hexpected

theorem readable_of_channelsBack {s : σ} (h : b.Current s) {channels : List ChatChannel}
    {defaultChannel : UInt16} (hback : b.ChannelsBack s channels defaultChannel)
    (hnodup : (channels.take maxJoinedChannels).Nodup) : Readable channels := by
  have hread := fun name (hmem : .private_ name ∈ channels.take maxJoinedChannels) =>
    b.mem_read_of_channelsBack h hback hmem
  have hname := fun name hmem => private_of_mem_readChannels (hread name hmem)
  refine ⟨hname, ?_⟩
  generalize channels.take maxJoinedChannels = taken at hread hname hnodup ⊢
  cases taken using List.reverseRecOn with
  | nil => simp
  | append_singleton taken last =>
    rw [List.dropLast_concat]
    intro name hmem
    refine end_of_read ?_ hnodup hmem
    intro name hmem
    have := hread name (List.mem_append_left _ hmem)
    rwa [readChannels_join fun name hmem => (hname name hmem).2, mem_unique] at this

end Backend

/-! ## Group names -/

theorem splitTab_append {id name : List Char} (h : '\t' ∉ id) :
    splitTab (id ++ '\t' :: name) = some (id, name) := by
  have hall : ∀ c ∈ id, decide (c ≠ '\t') = true := by
    intro c hc
    simpa using ne_of_mem_of_not_mem hc h
  unfold splitTab
  rw [List.dropWhile_append_of_pos hall, List.takeWhile_append_of_pos hall]
  simp

theorem parseGroupName_append (id : UInt32) {name : List Char} (h : name ≠ []) :
    parseGroupName (Nat.toDigits 10 id.toNat ++ '\t' :: name) =
      some (id, String.ofList name) := by
  have hparse := parseUnsigned_toDigits id.toNat_lt
  rw [parseGroupName, splitTab_append (not_mem_toDigits (by decide))]
  simp [hparse, h]

/-- A name that is read is not empty and is a part of the line. -/
theorem name_of_parseGroupName {line : List Char} {entry : UInt32 × String}
    (h : parseGroupName line = some entry) : entry.2 ≠ "" ∧ entry.2.toList ⊆ line := by
  simp only [parseGroupName, Option.bind_eq_some_iff, Option.ite_none_left_eq_some,
    Option.some.injEq] at h
  obtain ⟨⟨id, name⟩, hsplit, n, -, hname, rfl⟩ := h
  refine ⟨by simpa using hname, ?_⟩
  unfold splitTab at hsplit
  split at hsplit
  · simp at hsplit
  · rename_i c rest hdrop
    simp only [Option.some.injEq, Prod.mk.injEq] at hsplit
    rw [String.toList_ofList, ← hsplit.2]
    exact fun c hc => (List.dropWhile_suffix _).subset (hdrop ▸ List.mem_cons_of_mem _ hc)

/-- The names can be written as lines: none holds a line feed, and none but the last ends with a
carriage return. -/
def Lineable (names : GroupNames) : Prop :=
  (∀ entry ∈ names.toList, '\n' ∉ entry.2.toList) ∧
    ∀ entry ∈ names.toList.dropLast, entry.2.toList.getLast? ≠ some '\r'

def Named (names : GroupNames) : Prop := ∀ entry ∈ names.toList, entry.2 ≠ ""

theorem parseGroupName_serialize {entry : UInt32 × String} (h : entry.2 ≠ "") :
    parseGroupName (serializeGroupName entry) = some entry := by
  rw [serializeGroupName, parseGroupName_append _ (by simpa using h), String.ofList_toList]

theorem serializeGroupName_ne_nil (entry : UInt32 × String) : serializeGroupName entry ≠ [] := by
  simp [serializeGroupName]

theorem newline_not_mem_serializeGroupName {entry : UInt32 × String}
    (h : '\n' ∉ entry.2.toList) : '\n' ∉ serializeGroupName entry := by
  have hdigits : '\n' ∉ Nat.toDigits 10 entry.1.toNat := not_mem_toDigits (by decide)
  simp [serializeGroupName, hdigits, h]

theorem readLines_groups {entries : List (UInt32 × String)} {last : UInt32 × String}
    (h : ∀ entry ∈ entries ++ [last], '\n' ∉ entry.2.toList) :
    readLines (joinLines ((entries ++ [last]).map serializeGroupName)) =
      (entries.map serializeGroupName).map (chomp '\r') ++ [serializeGroupName last] := by
  rw [List.map_append, List.map_singleton]
  refine lines_intercalate ?_ (serializeGroupName_ne_nil last)
  intro text htext
  rw [← List.map_singleton, ← List.map_append, List.mem_map] at htext
  obtain ⟨entry, hmem, rfl⟩ := htext
  exact newline_not_mem_serializeGroupName (h entry hmem)

theorem chomp_serializeGroupName {entry : UInt32 × String} (h : entry.2 ≠ "") :
    chomp '\r' (serializeGroupName entry) =
      Nat.toDigits 10 entry.1.toNat ++ '\t' :: chomp '\r' entry.2.toList := by
  have hname : entry.2.toList ≠ [] := by simpa using h
  have hfront : serializeGroupName entry =
      (Nat.toDigits 10 entry.1.toNat ++ ['\t']) ++ entry.2.toList := by
    simp [serializeGroupName]
  rw [hfront, chomp_append _ hname]
  simp

theorem ofList_toList (names : GroupNames) : ExtTreeMap.ofList names.toList = names := by
  apply ExtTreeMap.ext_getElem?
  intro id
  cases hname : names[id]? with
  | some name =>
    have hmem := ExtTreeMap.mem_toList_iff_getElem?_eq_some.2 hname
    exact ExtTreeMap.getElem?_ofList_of_mem Std.compare_self ExtTreeMap.distinct_keys_toList hmem
  | none =>
    cases hread : (ExtTreeMap.ofList names.toList)[id]? with
    | none => rfl
    | some name =>
      have := ExtTreeMap.mem_toList_iff_getElem?_eq_some.1 (mem_of_getElem?_ofList hread)
      rw [hname] at this
      exact this.symm

/-- Names that can be written as lines are read back. -/
theorem read_write_of_lineable {names : GroupNames} (hnamed : Named names)
    (h : Lineable names) : readGroupNames (writeGroupNames names) = names := by
  have hentries : (readLines (writeGroupNames names)).filterMap parseGroupName =
      names.toList := by
    unfold writeGroupNames
    obtain ⟨hfeed, hend⟩ := h
    unfold Named at hnamed
    generalize names.toList = entries at hnamed hfeed hend ⊢
    cases entries using List.reverseRecOn with
    | nil => rfl
    | append_singleton entries last =>
      rw [List.dropLast_concat] at hend
      rw [readLines_groups hfeed, List.filterMap_append, List.filterMap_map,
        List.filterMap_map]
      have hparse : entries.filterMap
          ((parseGroupName ∘ chomp '\r') ∘ serializeGroupName) = entries := by
        rw [List.filterMap_congr (g := some), List.filterMap_some]
        intro entry hmem
        have hne := hnamed entry (List.mem_append_left _ hmem)
        simp only [Function.comp_apply, chomp_serializeGroupName hne]
        rw [chomp_of_getLast?_ne (hend entry hmem)]
        exact parseGroupName_serialize hne
      rw [hparse]
      simp [parseGroupName_serialize (hnamed last (by simp))]
  rw [readGroupNames, hentries, ofList_toList]

theorem mem_read_of_back {names : GroupNames}
    (h : readGroupNames (writeGroupNames names) = names) {entry : UInt32 × String}
    (hmem : entry ∈ names.toList) :
    entry ∈ (readLines (writeGroupNames names)).filterMap parseGroupName := by
  have hname : names[entry.1]? = some entry.2 :=
    ExtTreeMap.mem_toList_iff_getElem?_eq_some.1 hmem
  rw [← h] at hname
  exact mem_of_getElem?_ofList hname

/-- A name that loses its carriage return is read back as another. -/
theorem end_of_back {entries : List (UInt32 × String)} {last entry : UInt32 × String}
    (hread : entry ∈ entries.filterMap ((parseGroupName ∘ chomp '\r') ∘ serializeGroupName) ++
      [last])
    (hkeys : ((entries ++ [last]).map Prod.fst).Nodup)
    (hnamed : ∀ entry ∈ entries, entry.2 ≠ "") (hmem : entry ∈ entries) :
    entry.2.toList.getLast? ≠ some '\r' := by
  intro hend
  rcases List.mem_append.1 hread with hread | hread
  · obtain ⟨other, hother, hparse⟩ := List.mem_filterMap.1 hread
    simp only [Function.comp_apply, chomp_serializeGroupName (hnamed other hother)] at hparse
    have hchomp : chomp '\r' other.2.toList ≠ [] := by
      intro hnil
      rw [hnil, parseGroupName, splitTab_append (not_mem_toDigits (by decide))] at hparse
      simp at hparse
    rw [parseGroupName_append _ hchomp, Option.some.injEq] at hparse
    -- the keys are distinct, so it is the same entry
    have hsame : other = entry :=
      List.inj_on_of_nodup_map hkeys (List.mem_append_left _ hother)
        (List.mem_append_left _ hmem) (by rw [← hparse])
    subst hsame
    have hname : other.2.toList = chomp '\r' other.2.toList := by
      rw [← String.toList_ofList (l := chomp '\r' other.2.toList)]
      exact congrArg (fun entry => entry.2.toList) hparse.symm
    rw [chomp, if_pos hend] at hname
    have hlen := congrArg List.length hname
    have hpos := List.length_pos_of_mem (List.mem_of_getLast? hend)
    rw [List.length_dropLast] at hlen
    omega
  · obtain rfl := List.mem_singleton.1 hread
    exact List.disjoint_of_nodup_append hkeys.of_map hmem (by simp)

theorem lineable_of_back {names : GroupNames} (hnamed : Named names)
    (h : readGroupNames (writeGroupNames names) = names) : Lineable names := by
  have hread : ∀ entry ∈ names.toList,
      entry ∈ (readLines (writeGroupNames names)).filterMap parseGroupName :=
    fun _ hmem => mem_read_of_back h hmem
  have hfeed : ∀ entry ∈ names.toList, '\n' ∉ entry.2.toList := by
    intro entry hmem hnewline
    obtain ⟨line, hline, hparse⟩ := List.mem_filterMap.1 (hread entry hmem)
    exact not_mem_of_mem_lines hline ((name_of_parseGroupName hparse).2 hnewline)
  refine ⟨hfeed, ?_⟩
  have hkeys : (names.toList.map Prod.fst).Nodup := by
    rw [List.Nodup, List.pairwise_map]
    refine (ExtTreeMap.distinct_keys_toList (t := names)).imp ?_
    intro left right hne heq
    exact hne (Std.compare_eq_iff_eq.2 heq)
  unfold Named at hnamed
  unfold writeGroupNames at hread
  generalize names.toList = entries at hnamed hfeed hread hkeys ⊢
  cases entries using List.reverseRecOn with
  | nil => simp
  | append_singleton entries last =>
    rw [List.dropLast_concat]
    intro entry hmem
    have hentry := hread entry (List.mem_append_left _ hmem)
    rw [readLines_groups hfeed, List.filterMap_append, List.filterMap_map,
      List.filterMap_map] at hentry
    refine end_of_back ?_ hkeys (fun entry hmem => hnamed entry (List.mem_append_left _ hmem)) hmem
    simpa [parseGroupName_serialize (hnamed last (by simp))] using hentry

/-! ## What is claimed of the group names -/

/-- What is remembered, a club and a name. -/
abbrev Remembered := UInt32 × String

/-- For each club the last name that is not empty. -/
def lastNames (names : GroupNames) (remembered : Remembered) : GroupNames :=
  if remembered.2 = "" then names else names.insert remembered.1 remembered.2

namespace Backend

variable {σ : Type} (b : Backend σ)

/-- A store and the names that it should hold. -/
def remember (state : σ × GroupNames) (remembered : Remembered) : σ × GroupNames :=
  (b.rememberGroupName remembered.1 remembered.2 state.1, lastNames state.2 remembered)

def NamesBack (state : σ × GroupNames) : Prop := b.loadGroupNames state.1 = state.2

end Backend

/-- The name changes nothing, or with it the names can still be written as lines. -/
def KeepsLines (names : GroupNames) (remembered : Remembered) : Prop :=
  remembered.2 = "" ∨ names[remembered.1]? = some remembered.2 ∨
    Lineable (names.insert remembered.1 remembered.2)

theorem named_insert {names : GroupNames} (h : Named names) {remembered : Remembered}
    (hname : remembered.2 ≠ "") : Named (names.insert remembered.1 remembered.2) := by
  rintro ⟨id, name⟩ hmem
  have hlookup := ExtTreeMap.mem_toList_iff_getElem?_eq_some.1 hmem
  by_cases hid : remembered.1 = id
  · rw [hid, ExtTreeMap.getElem?_insert_self, Option.some.injEq] at hlookup
    rwa [← hlookup]
  · rw [getElem?_insert_of_ne hid] at hlookup
    exact h (id, name) (ExtTreeMap.mem_toList_iff_getElem?_eq_some.2 hlookup)

theorem named_lastNames {names : GroupNames} (h : Named names) (remembered : Remembered) :
    Named (lastNames names remembered) := by
  unfold lastNames
  split
  · exact h
  · exact named_insert h ‹_›

theorem insert_known {names : GroupNames} {remembered : Remembered}
    (h : names[remembered.1]? = some remembered.2) :
    names.insert remembered.1 remembered.2 = names := by
  apply ExtTreeMap.ext_getElem?
  intro id
  by_cases hid : remembered.1 = id
  · rw [← hid, ExtTreeMap.getElem?_insert_self, h]
  · rw [getElem?_insert_of_ne hid]

namespace Backend

variable {σ : Type} (b : Backend σ)

theorem loadGroupNames_save (names : GroupNames) (s : σ) :
    b.loadGroupNames (b.saveString groupNamesKey (writeGroupNames names) s) =
      readGroupNames (writeGroupNames names) := by
  rw [loadGroupNames, b.string_saveString, if_pos rfl]
  rfl

/-- After one more name the store answers right exactly if the step keeps the lines. -/
theorem namesBack_remember {state : σ × GroupNames} (h : b.NamesBack state)
    (hnamed : Named state.2) (remembered : Remembered) :
    b.NamesBack (b.remember state remembered) ↔ KeepsLines state.2 remembered := by
  obtain ⟨s, names⟩ := state
  obtain rfl : b.loadGroupNames s = names := h
  simp only [NamesBack, remember, rememberGroupName, lastNames, KeepsLines]
  by_cases hname : remembered.2 = ""
  · simp [hname]
  by_cases hknown : (b.loadGroupNames s)[remembered.1]? = some remembered.2
  · simp [hname, hknown, insert_known hknown]
  simp only [hname, hknown, if_false, false_or, loadGroupNames_save]
  have hnamed' := named_insert hnamed hname
  exact ⟨lineable_of_back hnamed', read_write_of_lineable hnamed'⟩

theorem namesBack_iff {s : σ} (h : b.string s groupNamesKey = none)
    (remembered : List Remembered) :
    StatesMeet b.remember b.NamesBack (s, ∅) remembered ↔
      StepsMeet b.remember (fun state name => KeepsLines state.2 name) (s, ∅) remembered := by
  have hstart : b.NamesBack (s, ∅) := by
    simp [NamesBack, loadGroupNames, h]
  refine statesMeet_iff_stepsMeet (I := fun state => b.NamesBack state ∧ Named state.2)
    (fun state hstate => hstate.1) ?_ ?_ ⟨hstart, by simp [Named]⟩
  · intro state name hstate hkeeps
    exact ⟨(b.namesBack_remember hstate.1 hstate.2 name).2 hkeeps,
      named_lastNames hstate.2 name⟩
  · intro state name hstate hkeeps hback
    exact hkeeps ((b.namesBack_remember hstate.1 hstate.2 name).1 hback)

end Backend

/-! ## Two systems -/

/-- The stores answer alike. -/
def Alike {σ τ : Type} (b : Backend σ) (s : σ) (c : Backend τ) (t : τ) : Prop :=
  ∀ key, b.string s key = c.string t key ∧ b.integer s key = c.integer t key

namespace Alike

variable {σ τ : Type} {b : Backend σ} {c : Backend τ} {s : σ} {t : τ}

theorem saveString (h : Alike b s c t) (key : String) (text : List Char) :
    Alike b (b.saveString key text s) c (c.saveString key text t) := by
  intro other
  rw [b.string_saveString, c.string_saveString, b.integer_saveString, c.integer_saveString,
    (h other).1, (h other).2]
  exact ⟨rfl, rfl⟩

theorem saveInteger (h : Alike b s c t) (key : String) (n : Int) :
    Alike b (b.saveInteger key n s) c (c.saveInteger key n t) := by
  intro other
  rw [b.string_saveInteger, c.string_saveInteger, b.integer_saveInteger, c.integer_saveInteger,
    (h other).1, (h other).2]
  exact ⟨rfl, rfl⟩

theorem loadOpenChannels (h : Alike b s c t) (defaultChannel : UInt16) :
    (b.loadOpenChannels defaultChannel s).1 = (c.loadOpenChannels defaultChannel t).1 ∧
      Alike b (b.loadOpenChannels defaultChannel s).2 c
        (c.loadOpenChannels defaultChannel t).2 := by
  simp only [Backend.loadOpenChannels, (h _).1, (h _).2]
  split
  · exact ⟨rfl, (h.saveString _ _).saveInteger _ _⟩
  · exact ⟨rfl, h⟩

theorem loadGroupNames (h : Alike b s c t) : b.loadGroupNames s = c.loadGroupNames t := by
  simp only [Backend.loadGroupNames, (h _).1]

theorem rememberGroupName (h : Alike b s c t) (clubId : UInt32) (name : String) :
    Alike b (b.rememberGroupName clubId name s) c (c.rememberGroupName clubId name t) := by
  unfold Backend.rememberGroupName
  rw [h.loadGroupNames]
  split_ifs
  · exact h
  · exact h
  · exact h.saveString _ _

end Alike

/-- What is claimed of one store: when the open channels that are saved are loaded, and when the
group names that are remembered are. -/
def Backend.ReadsBack {σ : Type} (b : Backend σ) (s : σ) : Prop :=
  (∀ channels defaultChannel,
    (Readable channels → b.ChannelsBack s channels defaultChannel) ∧
      ((channels.take maxJoinedChannels).Nodup →
        b.ChannelsBack s channels defaultChannel → Readable channels)) ∧
  (b.string s groupNamesKey = none → ∀ remembered,
    StatesMeet b.remember b.NamesBack (s, ∅) remembered ↔
      StepsMeet b.remember (fun state name => KeepsLines state.2 name) (s, ∅) remembered)

theorem Backend.readsBack {σ : Type} (b : Backend σ) {s : σ} (h : b.Current s) :
    b.ReadsBack s := by
  refine ⟨?_, fun hnone remembered => b.namesBack_iff hnone remembered⟩
  intro channels defaultChannel
  refine ⟨fun hreadable => b.channelsBack_of_readable h hreadable defaultChannel, ?_⟩
  intro hnodup hback
  exact b.readable_of_channelsBack h hback hnodup

/-- Both systems give the same answers and go on to do so. -/
def AnswerAlike (defaults : UserDefaults) (values : Values) : Prop :=
  (∀ channel, (MacOs.loadOpenChannels channel defaults).1 =
      (Windows.loadOpenChannels channel values).1 ∧
    Alike macOs (MacOs.loadOpenChannels channel defaults).2
      windows (Windows.loadOpenChannels channel values).2) ∧
  (∀ channels, Alike macOs (MacOs.saveOpenChannels channels defaults)
    windows (Windows.saveOpenChannels channels values)) ∧
  MacOs.loadGroupNames defaults = Windows.loadGroupNames values ∧
  ∀ clubId name, Alike macOs (MacOs.rememberGroupName clubId name defaults)
    windows (Windows.rememberGroupName clubId name values)

/-- **Preferences.** On both systems the open channels are read back when the first of them have
names that are not empty and hold no line feed and of which none but the last ends with a carriage
return, and only then if they are all different; the group names are read back in every state
exactly if every name that changes them leaves names without a line feed of which none but that of
the greatest id ends with a carriage return. The two systems answer alike. -/
theorem storedNames_iff (defaults : UserDefaults) (values : Values)
    (hmac : macOs.Current defaults) (hwindows : windows.Current values) :
    macOs.ReadsBack defaults ∧ windows.ReadsBack values ∧
      (Alike macOs defaults windows values → AnswerAlike defaults values) := by
  refine ⟨macOs.readsBack hmac, windows.readsBack hwindows, ?_⟩
  intro h
  exact ⟨h.loadOpenChannels, fun channels => h.saveString _ _, h.loadGroupNames,
    h.rememberGroupName⟩

/-- A store that holds nothing but the version of the catalogue. -/
def migratedValues : Values := fun key =>
  if key = channelCatalogVersionKey then some (.integer 1) else none

theorem current_migrated : windows.Current migratedValues := by
  simp [Backend.Current, windows, migratedValues, Value.asInteger, channelCatalogVersion]

theorem current_migrated' : macOs.Current ⟨migratedValues, migratedValues⟩ := by
  simp [Backend.Current, macOs, migratedValues, Value.asInteger, channelCatalogVersion]

theorem storedNames_migrated :
    macOs.ReadsBack ⟨migratedValues, migratedValues⟩ ∧ windows.ReadsBack migratedValues ∧
      (Alike macOs ⟨migratedValues, migratedValues⟩ windows migratedValues →
        AnswerAlike ⟨migratedValues, migratedValues⟩ migratedValues) :=
  storedNames_iff _ _ current_migrated' current_migrated

/-- A private name with a line feed is read as two channels, and a group's name with a line feed as
the names of two groups. -/
theorem not_storedNames :
    ¬ windows.ChannelsBack migratedValues [.private_ "a\nclub:7"] 1 ∧
      ¬ windows.NamesBack (windows.remember (migratedValues, ∅) (1, "a\n2\tb")) := by
  constructor
  · intro hback
    have hreadable := windows.readable_of_channelsBack current_migrated hback (by decide)
    exact (hreadable.1 "a\nclub:7" (by decide)).2 (by decide)
  · intro hback
    have hkeeps := (windows.namesBack_remember (by rfl) (by simp [Named]) _).1 hback
    rcases hkeeps with h | h | h
    · exact absurd h (by decide)
    · simp at h
    · have hmem : ((1, "a\n2\tb") : UInt32 × String) ∈
          ((∅ : GroupNames).insert 1 "a\n2\tb").toList := by
        rw [ExtTreeMap.mem_toList_iff_getElem?_eq_some, ExtTreeMap.getElem?_insert_self]
      exact h.1 _ hmem (by decide)

end Superiority.Desktop
