import Superiority.Updater.Appcast

/-!
# Publishing to the update feed

The three operations that write the feed. `publishMacosRelease` and `publishPlatformRelease` remove
the item of the build they publish and put a new one first; `addPlatformArtifact` puts an artifact
into the item that is there. Each reads back what it wrote for its own platform.

`publishItem_ok` and `addPlatformArtifact_ok` say what a call that succeeded has done.
-/

namespace Superiority.Updater

/-! ## What is written -/

def textElement (tagNamespace : Option String) (name value : String) : Element :=
  { tagNamespace, name, attributes := [], content := some (.text value) }

def descriptionElement (notes : String) : Element :=
  { tagNamespace := none
    name := "description"
    attributes := [⟨some sparkleNamespace, "format", "markdown"⟩]
    content := some (.cdata (trim notes)) }

def enclosureElement (artifact : Artifact) : Element :=
  { tagNamespace := none
    name := "enclosure"
    attributes :=
      [⟨none, "url", artifact.url⟩, ⟨none, "length", artifact.contentLength.toNat.repr⟩,
        ⟨none, "type", "application/octet-stream"⟩,
        ⟨some sparkleNamespace, "edSignature", artifact.ed25519Signature⟩]
    content := none }

def artifactElement (platform : Platform) (artifact : Artifact) : Element :=
  { tagNamespace := some superiorityNamespace
    name := "artifact"
    attributes :=
      [⟨none, "platform", platform.feedName⟩, ⟨none, "url", artifact.url⟩,
        ⟨none, "length", artifact.contentLength.toNat.repr⟩,
        ⟨some sparkleNamespace, "edSignature", artifact.ed25519Signature⟩]
        ++ (artifact.sha256.map (⟨none, "sha256", ·⟩)).toList
    content := none }

def macosItem (title version build publishedAt minimumSystemVersion notes : String)
    (artifact : Artifact) : Item :=
  [textElement none "title" title, textElement none "pubDate" publishedAt,
    textElement sparkleNamespace "version" build,
    textElement sparkleNamespace "shortVersionString" version,
    textElement sparkleNamespace "minimumSystemVersion" minimumSystemVersion,
    descriptionElement notes, enclosureElement artifact]

def platformItem (title version build publishedAt notes : String) (platform : Platform)
    (artifact : Artifact) : Item :=
  [textElement none "title" title, textElement none "pubDate" publishedAt,
    textElement sparkleNamespace "version" build,
    textElement sparkleNamespace "shortVersionString" version,
    descriptionElement notes, artifactElement platform artifact]

/-- The strings of a document outside its attributes, where quotes are not escaped. -/
def Document.texts (d : Document) : List String :=
  d.link :: d.items.flatten.filterMap fun e => e.content.map fun
    | .text value => value
    | .cdata value => value

def Document.attributeValues (d : Document) : List String :=
  d.items.flatten.flatMap fun e => e.attributes.map (·.value)

def emptyAppcast (feedUrl : String) : Document :=
  { link := feedUrl, declared := false, items := [] }

/-- The declaration is looked for in the whole text, so a release note can stand for it. -/
def ensureNamespace (d : Document) : Except Error Document :=
  let declaration := "xmlns:superiority=\"" ++ superiorityNamespace ++ "\""
  if d.declared || d.texts.any (containsStr · declaration) then .ok d
  else if (d.texts ++ d.attributeValues).any (containsStr · "xmlns:superiority=") then
    .error (.invalidAppcast "the superiority namespace is already bound to another URL")
  else .ok { d with declared := true }

/-! ## The publishers -/

variable (r : FeedReader)

def Element.isVersion (node : Element) : Bool :=
  node.name = "version" && node.tagNamespace = some sparkleNamespace

def itemBuild (item : Item) : Option String :=
  ((item.find? Element.isVersion).bind (·.read r)).map trim

/-- The items that stay: all but those of the build, as many as fit. -/
def retain (build : String) (limit : Nat) : Nat → List Item → List Item
  | _, [] => []
  | retained, item :: items =>
    if itemBuild r item = some build then retain build limit retained items
    else if retained < limit then item :: retain build limit (retained + 1) items
    else retain build limit retained items

/-- What the two publishers do to the document once it is there. -/
def publishItem (label : String) (output : Document) (item : Item) (platform : Platform)
    (version build : String) (artifact : Artifact) (maximumReleases : Nat) :
    Except Error Document := do
  let document ← parseDocument r output
  let output := { document with items := retain r build (maximumReleases - 1) 0 document.items }
  let document ← parseDocument r output
  let output := { document with items := item :: document.items }
  let parsed ← Appcast.parse r output platform
  match parsed.find? (·.build = build) with
  | none =>
    .error (.invalidAppcast ("published " ++ label ++ " release could not be read back"))
  | some published =>
    if published.artifact ≠ artifact ∨ published.version ≠ version then
      .error (.invalidAppcast
        ("published " ++ label ++ " release did not round-trip through the appcast"))
    else if maximumReleases < parsed.length then
      .error (.invalidAppcast "published appcast retained too many releases")
    else .ok output

/-- What both publishers refuse before they look at the feed. -/
def checkRelease (notes : String) (maximumReleases : Nat) : Except Error Unit :=
  if maximumReleases = 0 then
    .error (.invalidAppcast "the feed must retain at least one release")
  else if containsStr notes "]]>" then
    .error (.invalidAppcast "release notes cannot contain the CDATA terminator ]]>")
  else .ok ()

def publishMacosRelease (existing : Option Document)
    (feedUrl title version build publishedAt minimumSystemVersion notes : String)
    (artifact : Artifact) (maximumReleases : Nat) : Except Error Document := do
  checkRelease notes maximumReleases
  publishItem r "macOS" (existing.getD (emptyAppcast feedUrl))
    (macosItem title version build publishedAt minimumSystemVersion notes artifact) .macOs version
    build artifact maximumReleases

def publishPlatformRelease (existing : Option Document)
    (feedUrl title version build publishedAt notes : String) (platform : Platform)
    (artifact : Artifact) (maximumReleases : Nat) : Except Error Document :=
  if platform = .macOs then
    .error (.invalidAppcast "macOS releases must use the existing Sparkle enclosure")
  else do
    checkRelease notes maximumReleases
    let output ← ensureNamespace (existing.getD (emptyAppcast feedUrl))
    publishItem r "platform" output
      (platformItem title version build publishedAt notes platform artifact) platform version build
      artifact maximumReleases

def hasBuild (build : String) (item : Item) : Bool :=
  item.any fun child => child.isVersion && (child.read r).any (trim · = build)

def findReleaseItem (document : Document) (build : String) : Except Error Nat :=
  match document.items.findIdx? (hasBuild r build) with
  | some index => .ok index
  | none => .error (.invalidAppcast ("feed has no release with build " ++ build))

/-- The elements that an artifact of the platform replaces. -/
def isArtifactOf (platform : Platform) (node : Element) : Bool :=
  node.name = "artifact" && node.tagNamespace = some superiorityNamespace
    && node.attribute r "platform" = some platform.feedName

def removeArtifacts (platform : Platform) (item : Item) : Item :=
  item.filter fun node => ! isArtifactOf r platform node

def addPlatformArtifact (xml : Option Document) (build : String) (platform : Platform)
    (artifact : Artifact) : Except Error Document :=
  if platform = .macOs then
    .error (.invalidAppcast "macOS must continue to use the existing Sparkle enclosure")
  else match xml with
  -- an empty file
  | none => .error (.invalidAppcast "feed is missing its rss root")
  | some xml => do
    let output ← ensureNamespace xml
    let document ← parseDocument r output
    let release ← findReleaseItem r document build
    let output :=
      { document with items := document.items.modify release (removeArtifacts r platform) }
    let document ← parseDocument r output
    let release ← findReleaseItem r document build
    let output :=
      { document with
        items := document.items.modify release (· ++ [artifactElement platform artifact]) }
    let parsed ← Appcast.parse r output platform
    match parsed.find? (·.build = build) with
    | none => .error (.invalidAppcast "inserted artifact could not be read back")
    | some inserted =>
      if inserted.artifact ≠ artifact then
        .error (.invalidAppcast "inserted artifact did not round-trip through the appcast")
      else .ok output

/-! ## What a call that succeeded has done -/

/-- What an item becomes when the platform's artifact is added or replaced. -/
def withArtifact (platform : Platform) (artifact : Artifact) (item : Item) : Item :=
  removeArtifacts r platform item ++ [artifactElement platform artifact]

/-- The readers of the platform find the artifact under the build. -/
def ReadBack (d : Document) (platform : Platform) (build : String) (artifact : Artifact) : Prop :=
  ∃ releases published, Appcast.parse r d platform = .ok releases ∧
    releases.find? (·.build = build) = some published ∧ published.artifact = artifact

variable {r}

theorem parseDocument_ok {d d' : Document} (h : parseDocument r d = .ok d') :
    d' = d ∧ r.malformed d = none := by
  rw [parseDocument] at h
  split at h
  · cases h
  · next hnone => exact ⟨(Except.ok.inj h).symm, hnone⟩

theorem ensureNamespace_items {d d' : Document} (h : ensureNamespace d = .ok d') :
    d'.items = d.items := by
  rw [ensureNamespace] at h
  split at h
  · rw [Except.ok.inj h]
  · split at h
    · cases h
    · rw [← Except.ok.inj h]

theorem appcastParse_ok {d : Document} {platform : Platform} {releases : List Release}
    (h : Appcast.parse r d platform = .ok releases) :
    r.malformed d = none ∧ collectSome (parseRelease r · platform) d.items = .ok releases := by
  obtain ⟨d', hd, hitems⟩ := except_bind_ok.1 h
  obtain ⟨rfl, hnone⟩ := parseDocument_ok hd
  obtain ⟨releases', hcollect, hsome⟩ := except_bind_ok.1 hitems
  split at hsome
  · cases hsome
  · exact ⟨hnone, Except.ok.inj hsome ▸ hcollect⟩

/-- A well-formed feed is read item by item. -/
theorem appcastParse_of_collect {d : Document} {platform : Platform} {releases : List Release}
    (hnone : r.malformed d = none)
    (h : collectSome (parseRelease r · platform) d.items = .ok releases) :
    Appcast.parse r d platform =
      if releases = [] then .error (.unsupportedPlatform platform.feedName) else .ok releases := by
  have hd : parseDocument r d = .ok d := by simp [parseDocument, hnone]
  rw [Appcast.parse, hd]
  show (do
    let releases ← collectSome (parseRelease r · platform) d.items
    if releases = [] then .error (.unsupportedPlatform platform.feedName) else .ok releases) = _
  rw [h]
  rfl

/-- The loop that retains items is a filter and a bound. -/
theorem retain_eq (build : String) (limit retained : Nat) (items : List Item) :
    retain r build limit retained items =
      (items.filter (itemBuild r · ≠ some build)).take (limit - retained) := by
  induction items generalizing retained with
  | nil => simp [retain]
  | cons item items ih =>
    rw [retain]
    by_cases hbuild : itemBuild r item = some build
    · rw [if_pos hbuild, ih, List.filter_cons_of_neg (by simpa using hbuild)]
    · rw [if_neg hbuild, List.filter_cons_of_pos (by simpa using hbuild)]
      by_cases hroom : retained < limit
      · obtain ⟨n, hn⟩ : ∃ n, limit - retained = n + 1 := ⟨limit - retained - 1, by omega⟩
        rw [if_pos hroom, ih, hn, List.take_succ_cons, show limit - (retained + 1) = n by omega]
      · rw [if_neg hroom, ih, Nat.sub_eq_zero_of_le (Nat.le_of_not_lt hroom)]
        simp

/-- A whole release was put before the items that stay, and read back. -/
theorem publishItem_ok {label version build : String} {output d : Document} {item : Item}
    {platform : Platform} {artifact : Artifact} {max : Nat}
    (h : publishItem r label output item platform version build artifact max = .ok d) :
    d.items = item :: (output.items.filter (itemBuild r · ≠ some build)).take (max - 1) ∧
      ReadBack r d platform build artifact := by
  obtain ⟨_, hd, hremoved⟩ := except_bind_ok.1 h
  obtain ⟨rfl, _⟩ := parseDocument_ok hd
  obtain ⟨_, hd, hinserted⟩ := except_bind_ok.1 hremoved
  obtain ⟨rfl, _⟩ := parseDocument_ok hd
  obtain ⟨releases, hparse, hback⟩ := except_bind_ok.1 hinserted
  split at hback
  · cases hback
  · next published hfound =>
    split at hback
    · cases hback
    · next hsame =>
      split at hback
      · cases hback
      · obtain rfl := Except.ok.inj hback
        refine ⟨?_, releases, published, hparse, hfound, by_contra fun hne => hsame (.inl hne)⟩
        rw [retain_eq, Nat.sub_zero]

/-- Removing artifacts leaves the item its build. -/
theorem hasBuild_removeArtifacts {build : String} {platform : Platform} {item : Item} :
    hasBuild r build (removeArtifacts r platform item) = hasBuild r build item := by
  rw [hasBuild, removeArtifacts, List.any_filter, hasBuild]
  congr
  funext node
  by_cases hname : node.name = "artifact"
  · simp [Element.isVersion, hname]
  · simp [isArtifactOf, hname]

theorem findIdx?_modify {α : Type} {p : α → Bool} {f : α → α} (h : ∀ a, p (f a) = p a)
    (l : List α) (i : Nat) : (l.modify i f).findIdx? p = l.findIdx? p := by
  induction l generalizing i with
  | nil => simp
  | cons a as ih => cases i <;> simp [List.findIdx?_cons, h, ih]

theorem findReleaseItem_ok {d : Document} {build : String} {i : Nat}
    (h : findReleaseItem r d build = .ok i) : d.items.findIdx? (hasBuild r build) = some i := by
  rw [findReleaseItem] at h
  split at h
  · next hfound => rw [hfound, Except.ok.inj h]
  · cases h

/-- The artifact was put into the first item of the build, and read back. -/
theorem addPlatformArtifact_ok {xml : Option Document} {build : String} {platform : Platform}
    {artifact : Artifact} {d : Document}
    (h : addPlatformArtifact r xml build platform artifact = .ok d) :
    ∃ old i, xml = some old ∧ old.items.findIdx? (hasBuild r build) = some i ∧
      d.items = old.items.modify i (withArtifact r platform artifact) ∧
      ReadBack r d platform build artifact := by
  rw [addPlatformArtifact.eq_def] at h
  rw [if_neg fun hmac => by rw [if_pos hmac] at h; cases h] at h
  cases xml with
  | none => cases h
  | some old =>
    obtain ⟨output, hnamespace, hfirst⟩ := except_bind_ok.1 h
    obtain ⟨_, hd, hfind⟩ := except_bind_ok.1 hfirst
    obtain ⟨rfl, _⟩ := parseDocument_ok hd
    obtain ⟨i, hi, hremoved⟩ := except_bind_ok.1 hfind
    obtain ⟨_, hd, hsecond⟩ := except_bind_ok.1 hremoved
    obtain ⟨rfl, _⟩ := parseDocument_ok hd
    obtain ⟨j, hj, hinserted⟩ := except_bind_ok.1 hsecond
    obtain ⟨releases, hparse, hback⟩ := except_bind_ok.1 hinserted
    split at hback
    · cases hback
    · next inserted hfound =>
      split at hback
      · cases hback
      · next hsame =>
        obtain rfl := Except.ok.inj hback
        have hi := findReleaseItem_ok hi
        have hj := findReleaseItem_ok hj
        refine ⟨old, i, rfl, ensureNamespace_items hnamespace ▸ hi, ?_, releases, inserted, hparse,
          hfound, by_contra hsame⟩
        have hij : j = i := by
          rw [findIdx?_modify fun item => hasBuild_removeArtifacts, hi] at hj
          exact (Option.some.inj hj).symm
        rw [hij, List.modify_modify_eq, ensureNamespace_items hnamespace]
        rfl

end Superiority.Updater
