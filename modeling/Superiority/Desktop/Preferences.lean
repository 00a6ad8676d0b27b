import Mathlib.Data.List.Basic
import Std.Data.ExtTreeMap
import Superiority.Library.Lines
import Superiority.Live.Chat

/-!
# Preferences

What the desktop client remembers between runs: the channels that were open and the names of the
groups it has met. Both are texts of one line for each entry, without escapes. The functions are
written twice in the source, over the user defaults of macOS and over a file of values on Windows;
here they are written once over what the two have in common, a `Backend`.
-/

namespace Superiority.Desktop

open Std

/-! ## Stores -/

inductive Value where
  | string (text : List Char)
  | integer (n : Int)

def Value.asString : Value → Option (List Char)
  | .string text => some text
  | _ => none

def Value.asInteger : Value → Option Int
  | .integer n => some n
  | _ => none

/-- The values of one store by their keys. -/
abbrev Values := String → Option Value

def Values.insert (values : Values) (key : String) (value : Value) : Values :=
  fun other => if other = key then some value else values other

/-- A store of preferences: what is saved under a key is found there, and other keys keep theirs. -/
structure Backend (σ : Type) where
  string : σ → String → Option (List Char)
  integer : σ → String → Option Int
  saveString : String → List Char → σ → σ
  saveInteger : String → Int → σ → σ
  string_saveString : ∀ key text s other,
    string (saveString key text s) other = if other = key then some text else string s other
  integer_saveString : ∀ key text s other,
    integer (saveString key text s) other = if other = key then none else integer s other
  string_saveInteger : ∀ key n s other,
    string (saveInteger key n s) other = if other = key then none else string s other
  integer_saveInteger : ∀ key n s other,
    integer (saveInteger key n s) other = if other = key then some n else integer s other

/-- The defaults of the application and the standard ones, which are read where the first have
nothing; what is saved goes to both. -/
structure UserDefaults where
  app : Values
  standard : Values

/-- The user defaults of macOS. -/
def macOs : Backend UserDefaults where
  string defaults key :=
    ((defaults.app key).bind Value.asString).or ((defaults.standard key).bind Value.asString)
  integer defaults key :=
    ((defaults.app key).bind Value.asInteger).or ((defaults.standard key).bind Value.asInteger)
  saveString key text defaults :=
    ⟨defaults.app.insert key (.string text), defaults.standard.insert key (.string text)⟩
  saveInteger key n defaults :=
    ⟨defaults.app.insert key (.integer n), defaults.standard.insert key (.integer n)⟩
  string_saveString key text defaults other := by
    by_cases h : other = key <;> simp [Values.insert, h, Value.asString]
  integer_saveString key text defaults other := by
    by_cases h : other = key <;> simp [Values.insert, h, Value.asInteger]
  string_saveInteger key n defaults other := by
    by_cases h : other = key <;> simp [Values.insert, h, Value.asString]
  integer_saveInteger key n defaults other := by
    by_cases h : other = key <;> simp [Values.insert, h, Value.asInteger]

/-- The file of values on Windows. -/
def windows : Backend Values where
  string values key := (values key).bind Value.asString
  integer values key := (values key).bind Value.asInteger
  saveString key text values := values.insert key (.string text)
  saveInteger key n values := values.insert key (.integer n)
  string_saveString key text values other := by
    by_cases h : other = key <;> simp [Values.insert, h, Value.asString]
  integer_saveString key text values other := by
    by_cases h : other = key <;> simp [Values.insert, h, Value.asInteger]
  string_saveInteger key n values other := by
    by_cases h : other = key <;> simp [Values.insert, h, Value.asString]
  integer_saveInteger key n values other := by
    by_cases h : other = key <;> simp [Values.insert, h, Value.asInteger]

/-! ## Channels and groups as lines -/

def openChannelsKey : String := "openChannels"

def channelCatalogVersionKey : String := "publicChannelCatalogVersion"

def channelCatalogVersion : Int := 1

def legacyGeneralChannel : UInt16 := 1033

def groupNamesKey : String := "groupNames"

def legacyHomeChannelsKey : String := "homeChannels"

def maxJoinedChannels : Nat := 6

def dropPlus : List Char → List Char
  | '+' :: digits => digits
  | text => text

/-- `parse` of an unsigned number below the limit. -/
def parseUnsigned (limit : Nat) (text : List Char) : Option Nat :=
  let digits := dropPlus text
  if digits ≠ [] ∧ digits.all Char.isDigit ∧ Nat.ofDigitChars 10 digits 0 < limit then
    some (Nat.ofDigitChars 10 digits 0)
  else none

def publicMark : List Char := ['p', 'u', 'b', 'l', 'i', 'c', ':']

def clubMark : List Char := ['c', 'l', 'u', 'b', ':']

def privateMark : List Char := ['p', 'r', 'i', 'v', 'a', 't', 'e', ':']

def partyText : List Char := ['p', 'a', 'r', 't', 'y']

def parseChannel (value : List Char) : Option ChatChannel :=
  match value.dropPrefix? publicMark with
  | some value => (parseUnsigned (2 ^ 16) value).map fun n => .public_ (UInt16.ofNat n)
  | none =>
    match value.dropPrefix? clubMark with
    | some value => (parseUnsigned (2 ^ 32) value).map fun n => .club (UInt32.ofNat n)
    | none => ((value.dropPrefix? privateMark).filter (· ≠ [])).map fun name =>
      .private_ (String.ofList name)

def serializeChannel : ChatChannel → List Char
  | .public_ identifier => publicMark ++ Nat.toDigits 10 identifier.toNat
  | .private_ name => privateMark ++ name.toList
  | .club clubId => clubMark ++ Nat.toDigits 10 clubId.toNat
  | .party => partyText

/-- The channels without repetitions, each where it stands first. -/
def unique (channels : List ChatChannel) : List ChatChannel :=
  channels.foldl (fun kept channel => if channel ∈ kept then kept else kept ++ [channel]) []

def migrateLegacyGeneral (channels : List ChatChannel) (defaultChannel : UInt16) :
    List ChatChannel :=
  unique (channels.map fun channel =>
    if channel = .public_ legacyGeneralChannel then .public_ defaultChannel else channel)

/-- `split_once` at a tab. -/
def splitTab (line : List Char) : Option (List Char × List Char) :=
  match line.dropWhile (· ≠ '\t') with
  | [] => none
  | _ :: name => some (line.takeWhile (· ≠ '\t'), name)

def parseGroupName (line : List Char) : Option (UInt32 × String) :=
  (splitTab line).bind fun (id, name) =>
    (parseUnsigned (2 ^ 32) id).bind fun id =>
      if name = [] then none else some (UInt32.ofNat id, String.ofList name)

def serializeGroupName (entry : UInt32 × String) : List Char :=
  Nat.toDigits 10 entry.1.toNat ++ '\t' :: entry.2.toList

abbrev GroupNames := ExtTreeMap UInt32 String

def readLines (text : List Char) : List (List Char) := lines '\n' '\r' text

def joinLines (texts : List (List Char)) : List Char := List.intercalate ['\n'] texts

def readChannels (value : List Char) : List ChatChannel :=
  unique ((readLines value).filterMap parseChannel)

def readGroupNames (value : List Char) : GroupNames :=
  .ofList ((readLines value).filterMap parseGroupName)

def writeGroupNames (names : GroupNames) : List Char :=
  joinLines (names.toList.map serializeGroupName)

/-! ## The operations -/

namespace Backend

variable {σ : Type} (b : Backend σ)

def saveOpenChannels (channels : List ChatChannel) (s : σ) : σ :=
  b.saveString openChannelsKey
    (joinLines ((channels.take maxJoinedChannels).map serializeChannel)) s

def loadOpenChannels (defaultChannel : UInt16) (s : σ) : List ChatChannel × σ :=
  let stored := (b.string s openChannelsKey).or (b.string s legacyHomeChannelsKey)
  let channels := (stored.map readChannels).getD []
  let loaded :=
    if (b.integer s channelCatalogVersionKey).getD 0 < channelCatalogVersion then
      let channels := migrateLegacyGeneral channels defaultChannel
      (channels, b.saveInteger channelCatalogVersionKey channelCatalogVersion
        (b.saveOpenChannels channels s))
    else (channels, s)
  let channels := loaded.1.take maxJoinedChannels
  (if channels = [] then [.public_ defaultChannel] else channels, loaded.2)

def loadGroupNames (s : σ) : GroupNames :=
  ((b.string s groupNamesKey).map readGroupNames).getD ∅

def rememberGroupName (clubId : UInt32) (name : String) (s : σ) : σ :=
  if name = "" then s
  else if (b.loadGroupNames s)[clubId]? = some name then s
  else b.saveString groupNamesKey (writeGroupNames ((b.loadGroupNames s).insert clubId name)) s

end Backend

namespace MacOs

def loadOpenChannels := macOs.loadOpenChannels

def saveOpenChannels := macOs.saveOpenChannels

def loadGroupNames := macOs.loadGroupNames

def rememberGroupName := macOs.rememberGroupName

end MacOs

namespace Windows

def loadOpenChannels := windows.loadOpenChannels

def saveOpenChannels := windows.saveOpenChannels

def loadGroupNames := windows.loadGroupNames

def rememberGroupName := windows.rememberGroupName

end Windows

end Superiority.Desktop
