import Superiority.Casing
import Superiority.Library.Firsts
import Superiority.Sc2.Model

/-!
# The people a whisper can reach

What the composer offers after `/w`, and how it splits the line that is typed there. Texts are
lists of characters. The conversations are given by their keys, in their order, and a portrait by
the number of its image.
-/

namespace Superiority.Composer

open Sc2 (WhisperTarget)

abbrev Name := List Char

inductive PresenceKind where
  | available | away | busy | inGame | offline | unknown
  deriving DecidableEq

def presenceKind : PresenceState → PresenceKind
  | .available => .available
  | .away => .away
  | .busy => .busy
  | .inGame => .inGame
  | .offline => .offline
  | .unknown => .unknown

structure UiUser where
  name : Name
  presenceId : Option UInt32
  clanTag : Option Name
  presence : PresenceKind
  portrait : Option Nat
  ownClan : Bool

/-- The name without the clan's tag in front of it. -/
def UiUser.bareName (user : UiUser) : Name :=
  (user.clanTag.bind fun tag => user.name.dropPrefix? ('<' :: tag ++ ['>', ' '])).getD user.name

structure UiFriend where
  name : Name
  presence : PresenceState
  portrait : Option Nat
  target : WhisperTarget

def UiFriend.isOnline (friend : UiFriend) : Bool :=
  friend.presence ≠ .offline ∧ friend.presence ≠ .unknown

structure ChannelState where
  title : String
  users : List UiUser

structure WhisperPeer where
  display : Name
  target : WhisperTarget
  deriving DecidableEq

structure PersonRow where
  name : Name
  clanTag : Option Name
  ownClan : Bool
  portrait : Option Nat
  presence : PresenceKind
  context : String
  offline : Bool
  target : WhisperTarget
  deriving DecidableEq

def PersonRow.peer (row : PersonRow) : WhisperPeer := ⟨row.name, row.target⟩

inductive PersonSource where
  | friend
  | clan
  | channel
  | whispered

namespace PersonSource

def rank : PersonSource → Nat
  | friend | clan => 0
  | channel => 1
  | whispered => 2

def label : PersonSource → Option String
  | friend => some "Friend"
  | clan => some "Clan"
  | channel | whispered => none

end PersonSource

inductive PersonWhere where
  | thisChannel
  | channel (title : String)
  | offline
  | nowhere

def contextLine (source : PersonSource) (place : PersonWhere) : String :=
  let place := match place with
    | .thisChannel => some "this channel"
    | .channel title => some title
    | .offline => some "Offline — will deliver"
    | .nowhere => none
  match source.label, place with
  | some label, some place => label ++ " · " ++ place
  | some label, none => label
  | none, some place => place
  | none, none => "Recent whisper"

/-! ## Matching -/

variable (casing : Casing)

/-- How many bytes of the text the wanted letters take up at its start. -/
def spanAt : List Char → List Char → Option Nat
  | _, [] => some 0
  | [], _ :: _ => none
  | letter :: found, wanted :: query =>
    if casing.sameLetter letter wanted then (spanAt found query).map (letter.utf8Size + ·) else none

/-- The first place of the wanted letters in a text that starts at an offset. -/
def spanFrom (query : List Char) : Nat → List Char → Option (Nat × Nat)
  | _, [] => none
  | start, letter :: rest =>
    match spanAt casing (letter :: rest) query with
    | some length => some (start, start + length)
    | none => spanFrom query (start + letter.utf8Size) rest

def matchSpan (name : Name) (query : List Char) : Option (Nat × Nat) :=
  if (trimmed query).isEmpty then none else spanFrom casing (trimmed query) 0 name

def matchesPerson (name : Name) (query : List Char) : Bool :=
  (trimmed query).isEmpty || (matchSpan casing name query).isSome

/-! ## The rows -/

structure Ranked where
  row : PersonRow
  source : PersonSource

def memberTarget (user : UiUser) : WhisperTarget :=
  user.presenceId.elim (.name (String.ofList user.bareName)) .presence

def memberRow (user : UiUser) (context : String) : PersonRow where
  name := user.bareName
  clanTag := user.clanTag
  ownClan := user.ownClan
  portrait := user.portrait
  presence := user.presence
  context := context
  offline := user.presence = .offline
  target := memberTarget user

def memberPlace (tabs : List ChannelState) (active : Nat) (name : Name) : Option PersonWhere :=
  if (tabs[active]?).any fun tab => tab.users.any (·.bareName = name) then some .thisChannel
  else (tabs.find? fun tab => tab.users.any (·.bareName = name)).map fun tab => .channel tab.title

def friendRanked (tabs : List ChannelState) (active : Nat) (friend : UiFriend) : Ranked where
  row := {
    name := friend.name
    clanTag := none
    ownClan := false
    portrait := friend.portrait
    presence := presenceKind friend.presence
    context := contextLine .friend (
      ((if friend.isOnline then some () else none).bind fun _ =>
        memberPlace tabs active friend.name).getD
        (if friend.isOnline then .nowhere else .offline))
    offline := !friend.isOnline
    target := friend.target }
  source := .friend

def memberRanked (active : Nat) (tab : ChannelState) (index : Nat) (user : UiUser) : Ranked :=
  let source := if user.ownClan then .clan else .channel
  ⟨memberRow user (contextLine source (if index = active then .thisChannel else
    .channel tab.title)), source⟩

def whisperedRanked (peer : Name) : Ranked where
  row := {
    name := peer
    clanTag := none
    ownClan := false
    portrait := none
    presence := .unknown
    context := contextLine .whispered .nowhere
    offline := false
    target := .name (String.ofList peer) }
  source := .whispered

/-- Where someone is known from, then whether they are there, then their name. -/
def Ranked.le (left right : Ranked) : Bool :=
  (((compare left.source.rank right.source.rank).then
    (compare left.row.offline right.row.offline)).then
    (compare (casing.toLowercase left.row.name) (casing.toLowercase right.row.name))).isLE

def rank (ranked : List Ranked) (limit : Nat) : List PersonRow :=
  ((ranked.mergeSort (Ranked.le casing)).take limit).map (·.row)

/-- A row is kept when nobody of its name has been seen. -/
def Ranked.key (ranked : Ranked) : Name := casing.toLowercase ranked.row.name

def whisperCandidates (tabs : List ChannelState) (active : Nat) (friends : List UiFriend)
    (whispered : List Name) (query : List Char) (limit : Nat) : List PersonRow :=
  let push := Gathered.push (Ranked.key casing)
  let known := (friends.filter fun friend => matchesPerson casing friend.name query).foldl
    (fun ranked friend => push ranked (friendRanked tabs active friend)) Gathered.empty
  let present := tabs.zipIdx.foldl (fun ranked tab =>
    (tab.1.users.filter fun user => matchesPerson casing user.name query).foldl
      (fun ranked user => push ranked (memberRanked active tab.1 tab.2 user)) ranked) known
  let addressed := (whispered.filter fun peer => matchesPerson casing peer query).foldl
    (fun ranked peer => push ranked (whisperedRanked peer)) present
  rank casing addressed.kept limit

/-! ## The pool -/

def WhisperPeer.key (peer : WhisperPeer) : Name := casing.toLowercase peer.display

def whisperPool (tabs : List ChannelState) (friends : List UiFriend) (whispered : List Name) :
    List WhisperPeer :=
  let push := Gathered.push (WhisperPeer.key casing)
  let known := friends.foldl (fun pool friend => push pool ⟨friend.name, friend.target⟩)
    Gathered.empty
  let present := (tabs.flatMap (·.users)).foldl
    (fun pool user => push pool ⟨user.bareName, memberTarget user⟩) known
  (whispered.foldl (fun pool peer => push pool ⟨peer, .name (String.ofList peer)⟩) present).kept

/-- The lengths that a name at the start of the line can have, in characters. -/
def nameLengths (query : List Char) : List Nat :=
  ((List.range query.length).filter fun offset => (query[offset]?).any isWhitespace) ++
    [query.length]

def sameName (left right : Name) : Bool := casing.toLowercase left = casing.toLowercase right

/-- The one of a list of one. -/
def onlyOne {α : Type} : List α → Option α
  | [a] => some a
  | _ => none

def splitWhisper (tabs : List ChannelState) (friends : List UiFriend) (whispered : List Name)
    (query : List Char) : Option (WhisperPeer × List Char) :=
  let query := trimmed query
  if query.isEmpty then none else
    let pool := whisperPool casing tabs friends whispered
    let splits := (nameLengths query).reverse
    let named := splits.findSome? fun end_ =>
      (pool.find? fun peer => sameName casing peer.display (query.take end_)).map fun peer =>
        (peer, trimStart (query.drop end_))
    let narrowed := splits.findSome? fun end_ =>
      (onlyOne (pool.filter fun peer =>
        matchesPerson casing peer.display (query.take end_))).map fun peer =>
        (peer, trimStart (query.drop end_))
    let name := query.takeWhile fun c => !isWhitespace c
    (named.or narrowed).or (some
      (⟨name, .name (String.ofList name)⟩, trimStart ((query.drop name.length).drop 1)))

inductive CommandKind where
  | join
  | whisper
  | party
  | mention

/-- The line that a chosen row leaves, for the commands that are lines. -/
def CommandKind.completedLine (name : Name) : CommandKind → Option (List Char)
  | .join => some ("/join ".toList ++ name ++ [' '])
  | .whisper => some ("/w ".toList ++ name ++ [' '])
  | .mention | .party => none

end Superiority.Composer
