import Mathlib.Data.Fintype.Basic
import Superiority.Error
import Superiority.Library.Fallible
import Superiority.Text

/-!
# The update feed as a client reads it

A feed is an RSS document whose items are releases. An item carries the artifact of each platform:
the Sparkle enclosure for macOS, an extension element for each Windows platform.

The XML parser and the URL parser are packages outside the repository, so they are a parameter
(`FeedReader`): a document stands for its text, with every string as it was before the writer
escaped it, and the reader decides what of such a string comes back.
-/

namespace Superiority.Updater

def sparkleNamespace : String := "http://www.andymatuschak.org/xml-namespaces/sparkle"

def superiorityNamespace : String :=
  "https://superiority-sc2-updates.pages.dev/xml-namespaces/update"

inductive Platform where
  | macOs
  | windowsX86_64
  | windowsAarch64
  deriving DecidableEq, Repr

instance : Fintype Platform where
  elems := {.macOs, .windowsX86_64, .windowsAarch64}
  complete p := by cases p <;> decide

def Platform.feedName : Platform → String
  | .macOs => "macos"
  | .windowsX86_64 => "windows-x86_64"
  | .windowsAarch64 => "windows-aarch64"

/-- The URL is kept as its serialization. -/
structure Artifact where
  url : String
  contentLength : UInt64
  ed25519Signature : String
  sha256 : Option String
  deriving DecidableEq, Repr

/-- What an item says of its release to every platform. -/
structure ReleaseTexts where
  title : String
  version : String
  build : String
  minimumSystemVersion : Option String
  notes : String
  notesFormat : String
  deriving DecidableEq, Repr

structure Release extends ReleaseTexts where
  artifact : Artifact
  deriving DecidableEq, Repr

/-! ## Documents -/

structure Attribute where
  tagNamespace : Option String
  name : String
  value : String
  deriving DecidableEq

/-- Character data, as escaped text or in a CDATA section. -/
inductive CharacterData where
  | text (value : String)
  | cdata (value : String)
  deriving DecidableEq

structure Element where
  tagNamespace : Option String
  name : String
  attributes : List Attribute
  content : Option CharacterData
  deriving DecidableEq

/-- An item by its child elements. -/
abbrev Item := List Element

/-- A feed with its one channel: the channel's link, whether the root binds the prefix of
`superiorityNamespace`, and the items in order. -/
structure Document where
  link : String
  declared : Bool
  items : List Item
  deriving DecidableEq

/-- What is read of a written feed. A correct parser gives back as it stands an attribute of ASCII
letters, digits, `-` and `_`. -/
structure FeedReader where
  /-- What `roxmltree` says of a text that is not well-formed. -/
  malformed : Document → Option String
  text : String → Option String
  cdata : String → Option String
  attributeValue : String → String
  /-- `Url::parse`, the URL by its serialization. -/
  parseUrl : String → Except String String
  attributeValue_plain : ∀ s : String,
    (∀ c ∈ s.toList, c.isAlphanum = true ∨ c = '-' ∨ c = '_') → attributeValue s = s

@[simp] theorem FeedReader.attributeValue_feedName (r : FeedReader) (platform : Platform) :
    r.attributeValue platform.feedName = platform.feedName := by
  apply r.attributeValue_plain
  have hplain : (platform.feedName.toList.all fun c => c.isAlphanum || c = '-' || c = '_') =
      true := by
    cases platform <;> decide
  intro c hc
  simpa [or_assoc] using List.all_eq_true.1 hplain c hc

theorem Platform.feedName_inj {p q : Platform} : p.feedName = q.feedName ↔ p = q := by
  constructor
  · intro h
    cases p <;> cases q <;> first | rfl | exact absurd h (by decide)
  · intro h
    rw [h]

/-! ## Reading an item -/

variable (r : FeedReader)

/-- `Document::parse`. -/
def parseDocument (document : Document) : Except Error Document :=
  match r.malformed document with
  | some message => .error (.invalidAppcast message)
  | none => .ok document

/-- `node.text()`. -/
def Element.read (e : Element) : Option String :=
  e.content.bind fun
    | .text value => r.text value
    | .cdata value => r.cdata value

def attributeByLocalName (node : Element) (name : String) : Option String :=
  (node.attributes.find? (·.name = name)).map fun a => r.attributeValue a.value

/-- `node.attribute(name)`: an attribute without a namespace. -/
def Element.attribute (node : Element) (name : String) : Option String :=
  (node.attributes.find? fun a => a.name = name && a.tagNamespace = none).map fun a =>
    r.attributeValue a.value

def requiredAttribute (node : Element) (name : String) : Except Error String :=
  match attributeByLocalName r node name with
  | some value => .ok value
  | none => .error (.invalidAppcast ("artifact is missing " ++ name))

/-- The element is the artifact of the platform. An enclosure without a platform is that of
macOS. -/
def isArtifact (platform : Platform) (node : Element) : Bool :=
  match node.name with
  | "enclosure" =>
    let declared := attributeByLocalName r node "os"
    match platform, declared with
    | .macOs, none => true
    | .macOs, some "macos" => true
    | .windowsX86_64, some "windows" => true
    | .windowsAarch64, some "windows" => true
    | _, _ => declared = some platform.feedName
  | "artifact" =>
    node.tagNamespace = some superiorityNamespace &&
      attributeByLocalName r node "platform" = some platform.feedName
  | _ => false

def findArtifact (item : Item) (platform : Platform) : Option Element :=
  item.find? (isArtifact r platform)

/-- The trimmed text of an element, if there is any. -/
def shownText (node : Option Element) : Option String :=
  ((node.bind (·.read r)).map trim).filter (· ≠ "")

def childText (item : Item) (name : String) : Option String :=
  shownText r (item.find? (·.name = name))

def namespacedChildText (item : Item) (name : String) : Option String :=
  shownText r (item.find? fun node => node.name = name && node.tagNamespace = some sparkleNamespace)

/-- The part of `parse_release` that reads the item. -/
def releaseTexts (item : Item) : Except Error ReleaseTexts :=
  match namespacedChildText r item "version" with
  | none => .error (.invalidAppcast "item is missing sparkle:version")
  | some build =>
    match (namespacedChildText r item "shortVersionString").or (childText r item "title") with
    | none => .error (.invalidAppcast "item is missing a display version")
    | some version =>
      let description := item.find? (·.name = "description")
      .ok
        { title := (childText r item "title").getD version
          version
          build
          minimumSystemVersion := namespacedChildText r item "minimumSystemVersion"
          notes := trim ((description.bind (·.read r)).getD
            "Release notes are not available for this update.")
          notesFormat := (description.bind (attributeByLocalName r · "format")).getD "plain-text" }

/-- The part of `parse_release` that reads the artifact. -/
def parseArtifact (node : Element) : Except Error Artifact := do
  let url ← requiredAttribute r node "url"
  let length ← requiredAttribute r node "length"
  let contentLength ← (parseU64 length).mapError fun error =>
    .invalidAppcast ("invalid enclosure length: " ++ error)
  let ed25519Signature ← requiredAttribute r node "edSignature"
  let sha256 := attributeByLocalName r node "sha256"
  let url ← (r.parseUrl url).mapError fun error =>
    .invalidAppcast ("invalid enclosure URL: " ++ error)
  return { url, contentLength, ed25519Signature, sha256 }

def parseRelease (item : Item) (platform : Platform) : Except Error (Option Release) :=
  match findArtifact r item platform with
  | none => .ok none
  | some artifactNode => do
    let texts ← releaseTexts r item
    let artifact ← parseArtifact r artifactNode
    return some { texts with artifact }

/-- `Appcast::parse`, the feed by its releases. -/
def Appcast.parse (document : Document) (platform : Platform) : Except Error (List Release) := do
  let document ← parseDocument r document
  let releases ← collectSome (parseRelease r · platform) document.items
  if releases = [] then .error (.unsupportedPlatform platform.feedName) else .ok releases

end Superiority.Updater
