import Superiority.Library.Checked
import Superiority.Library.Markup
import Superiority.Updater.Publishing
import Superiority.Updater.Versions

/-!
# The update feed as text

What the release script does to the text of a feed: a Windows artifact is put into an item by byte
positions that a parse of the text gave. The XML parser is a package outside the repository, so it
is a parameter (`XmlParser`), a correct one with exact ranges.
-/

namespace Superiority.Updater.FeedText

/-- The bytes of a `str`. -/
abbrev Xml := List UInt8

/-- `<`, `>` and `/`. -/
def xmlMarks : Marks UInt8 where
  opening := 60
  closing := 62
  ending := 47
  opening_ne_closing := by decide
  ending_ne_opening := by decide
  ending_ne_closing := by decide

/-! ## Text -/

/-- `str::find` of a string. -/
def find (pattern : Xml) : Xml → Option Nat
  | [] => if pattern.isEmpty then some 0 else none
  | b :: text => if pattern.isPrefixOf (b :: text) then some 0 else (find pattern text).map (· + 1)

/-- `str::contains`. -/
def contains (xml pattern : Xml) : Bool := (find pattern xml).isSome

/-- `insert_str`. -/
def insertStr (text : Xml) (index : Nat) (inserted : Xml) : Checked Error Xml :=
  if isCharBoundary text index then .ok (text.take index ++ inserted ++ text.drop index)
  else .error .panic

/-- `checked_sub`. -/
def checkedSub (a b : Nat) : Option Nat := if b ≤ a then some (a - b) else none

structure ByteRange where
  start : Nat
  stop : Nat
  deriving DecidableEq, Repr

/-- `replace_range(range, "")`. -/
def removeRange (text : Xml) (range : ByteRange) : Checked Error Xml :=
  if range.start ≤ range.stop && isCharBoundary text range.start
      && isCharBoundary text range.stop then
    .ok (text.take range.start ++ text.drop range.stop)
  else .error .panic

/-- The ranges are removed from the last to the first. -/
def removeRanges (text : Xml) (ranges : List ByteRange) : Checked Error Xml :=
  ranges.reverse.foldlM removeRange text

/-- `str::replace` of a character. -/
def replaceChar (value : String) (c : Char) (replacement : String) : String :=
  String.ofList (value.toList.flatMap fun d => if d = c then replacement.toList else [d])

def escapeAttribute (value : String) : String :=
  let value := replaceChar value '&' "&amp;"
  let value := replaceChar value '\x22' "&quot;"
  let value := replaceChar value '<' "&lt;"
  replaceChar value '>' "&gt;"

/-! ## The parser -/

/-- An element of a parsed document: what it says, `node.range()`, and its child elements. -/
inductive XmlNode where
  | mk (element : Element) (range : ByteRange) (children : List XmlNode)

namespace XmlNode

def element : XmlNode → Element
  | mk element _ _ => element

def range : XmlNode → ByteRange
  | mk _ range _ => range

def children : XmlNode → List XmlNode
  | mk _ _ children => children

mutual

/-- The element and all below it, in document order. -/
def descendants : XmlNode → List XmlNode
  | mk element range children => mk element range children :: descendantsOfAll children

def descendantsOfAll : List XmlNode → List XmlNode
  | [] => []
  | node :: nodes => node.descendants ++ descendantsOfAll nodes

end

def isItem (node : XmlNode) : Bool := node.element.name = "item"

/-- An item as it is read, by its child elements. -/
def item (node : XmlNode) : Item := node.children.map element

end XmlNode

/-- The range is that of an element: it stands outside every tag, and is one. -/
structure ByteRange.Encloses (xml : Xml) (r : ByteRange) : Prop where
  ordered : r.start ≤ r.stop
  inside : r.stop ≤ xml.length
  outside : xmlMarks.leaves false (xml.take r.start) = false
  element : xmlMarks.IsElement ((xml.take r.stop).drop r.start)

/-- An end tag with `size` bytes of name and blanks ends at the position. -/
structure EndTagAt (xml : Xml) (stop size : Nat) : Prop where
  fits : size + 3 ≤ stop
  inside : stop ≤ xml.length
  outside : xmlMarks.leaves false (xml.take (stop - size - 3)) = false
  tag : ∃ name, (xml.take stop).drop (stop - size - 3) = 60 :: 47 :: name ++ [62] ∧
    xmlMarks.Plain name

/-- The ranges of an element's children are exact, and so is the end of its own. -/
structure XmlNode.Exact (xml : Xml) (node : XmlNode) : Prop where
  ordered : node.children.Pairwise fun c d => c.range.stop ≤ d.range.start
  encloses : ∀ child ∈ node.children, child.range.Encloses xml
  endTag : node.children ≠ [] →
    ∃ size, (utf8Bytes node.element.name).length ≤ size ∧ EndTagAt xml node.range.stop size

/-- `Document::parse` by the root element, and `Url::parse` by the serialization. -/
structure XmlParser where
  parse : Xml → Except String XmlNode
  parseUrl : String → Except String String
  exact : ∀ xml root, parse xml = .ok root → ∀ node ∈ root.descendants, node.Exact xml

variable (p : XmlParser)

/-- A parsed element says what the text says. -/
def XmlParser.reader : FeedReader where
  malformed _ := none
  text := some
  cdata := some
  attributeValue := id
  parseUrl := p.parseUrl
  attributeValue_plain _ _ := rfl

def parseDocument (xml : Xml) : Except Error XmlNode := (p.parse xml).mapError .invalidAppcast

/-- `Appcast::parse`. -/
def parseAppcast (xml : Xml) (platform : Platform) : Except Error (List Release) := do
  let document ← parseDocument p xml
  let releases ← collectSome (parseRelease p.reader · platform)
    ((document.descendants.filter XmlNode.isItem).map XmlNode.item)
  if releases = [] then .error (.unsupportedPlatform platform.feedName) else .ok releases

/-! ## The edits -/

def declaration : Xml := utf8Bytes ("xmlns:superiority=\"" ++ superiorityNamespace ++ "\"")

def ensureNamespace (xml : Xml) : Checked Error Xml :=
  if contains xml declaration then .ok xml
  else if contains xml (utf8Bytes "xmlns:superiority=") then
    .fail (.invalidAppcast "the superiority namespace is already bound to another URL")
  else match find (utf8Bytes "<rss") xml with
  | none => .fail (.invalidAppcast "feed is missing its rss root")
  | some start =>
    match find (utf8Bytes ">") (xml.drop start) with
    | none => .fail (.invalidAppcast "feed has an unterminated rss root")
    | some offset => insertStr xml (start + offset) (utf8Bytes " " ++ declaration)

def findReleaseItem (document : XmlNode) (build : String) : Except Error XmlNode :=
  okOr ((document.descendants.filter XmlNode.isItem).find? (hasBuild p.reader build ·.item))
    (.invalidAppcast ("feed has no release with build " ++ build))

/-- What the element says, behind its name. -/
def artifactAttributes (platform : Platform) (artifact : Artifact) : String :=
  " platform=\"" ++ escapeAttribute platform.feedName ++ "\" url=\"" ++
    escapeAttribute artifact.url ++ "\" length=\"" ++ artifact.contentLength.toNat.repr ++
    "\" sparkle:edSignature=\"" ++ escapeAttribute artifact.ed25519Signature ++ "\"" ++
    (match artifact.sha256 with
      | some sha256 => " sha256=\"" ++ escapeAttribute sha256 ++ "\""
      | none => "")

/-- `artifact_element`. -/
def artifactElement (platform : Platform) (artifact : Artifact) : Xml :=
  utf8Bytes ("\n            <superiority:artifact" ++ artifactAttributes platform artifact ++ " />")

/-- The elements of the item that an artifact of the platform replaces. -/
def existingArtifacts (release : XmlNode) (platform : Platform) : List ByteRange :=
  (release.children.filter (isArtifactOf p.reader platform ·.element)).map XmlNode.range

def addPlatformArtifact (xml : Xml) (build : String) (platform : Platform) (artifact : Artifact) :
    Checked Error Xml :=
  if platform = .macOs then
    .fail (.invalidAppcast "macOS must continue to use the existing Sparkle enclosure")
  else do
    let output ← ensureNamespace xml
    let document ← .ofExcept (parseDocument p output)
    let release ← .ofExcept (findReleaseItem p document build)
    let output ← removeRanges output (existingArtifacts p release platform)
    let document ← .ofExcept (parseDocument p output)
    let release ← .ofExcept (findReleaseItem p document build)
    let closing ← .ofExcept (okOr (checkedSub release.range.stop (utf8Bytes "</item>").length)
      (.invalidAppcast "release item has an invalid range"))
    let output ← insertStr output closing (artifactElement platform artifact)
    let parsed ← .ofExcept (parseAppcast p output platform)
    match parsed.find? (·.build = build) with
    | none => .fail (.invalidAppcast "inserted artifact could not be read back")
    | some inserted =>
      if inserted.artifact ≠ artifact then
        .fail (.invalidAppcast "inserted artifact did not round-trip through the appcast")
      else .ok output

def releaseBuilds (xml : Xml) : Except Error (List String) := do
  let document ← parseDocument p xml
  return (document.descendants.filter (·.element.isVersion)).filterMap fun node =>
    (node.element.read p.reader).map trim

/-- One release of the older copy. -/
def preserveRelease (builds : List String) (platform : Platform) (output : Xml)
    (release : Release) : Checked Error Xml :=
  if builds.any (· = release.build) then
    addPlatformArtifact p output release.build platform release.artifact
  else .ok output

/-- One platform. An older copy that does not parse for it is passed over. -/
def preservePlatform (builds : List String) (previous : Xml) (output : Xml)
    (platform : Platform) : Checked Error Xml :=
  match parseAppcast p previous platform with
  | .error _ => .ok output
  | .ok releases => releases.foldlM (preserveRelease p builds platform) output

def preservePlatformArtifacts (generated previous : Xml) : Checked Error Xml := do
  let builds ← .ofExcept (releaseBuilds p generated)
  [Platform.windowsX86_64, .windowsAarch64].foldlM (preservePlatform p builds previous) generated

end Superiority.Updater.FeedText
