import Superiority.Updater.Feed
import Superiority.Updater.FeedText

/-!
# Carrying artifacts over

Each artifact that is added leaves a line more in the item than the one it replaces took: only the
element is removed, but blanks are put in with it. `gauge_addPlatformArtifact` says so of any feed,
and so no sequence of additions gives a text back.

* **`carriedOver`** – what adding an artifact undoes, that adding it again never gives the same
  text, and when carrying artifacts over twice is carrying them over once.
-/

namespace Superiority.Updater.FeedText

variable {p : XmlParser}

/-! ## The inserted text -/

theorem utf8Bytes_append (s t : String) : utf8Bytes (s ++ t) = utf8Bytes s ++ utf8Bytes t := by
  simp [utf8Bytes]

/-- A byte of ASCII is that of a character. -/
theorem mem_of_mem_utf8Bytes {s : String} {b : UInt8} (hb : b ∈ utf8Bytes s) (hascii : b < 0x80) :
    ∃ c ∈ s.toList, b = UInt8.ofNat c.toNat ∧ c.toNat < 0x80 := by
  obtain ⟨c, hc, hbytes⟩ := List.mem_flatMap.1 hb
  rcases encodeChar_cases c with ⟨hsmall, hone⟩ | ⟨lead, tail, hmany, -, hhigh⟩
  · rw [hone, List.mem_singleton] at hbytes
    exact ⟨c, hc, hbytes, hsmall⟩
  · rw [hmany] at hbytes
    exact absurd hascii (hhigh b hbytes)

/-- A string without angle brackets. -/
def Quiet (s : String) : Prop := '<' ∉ s.toList ∧ '>' ∉ s.toList

instance : DecidablePred Quiet := fun _ => inferInstanceAs (Decidable (_ ∧ _))

theorem Quiet.append {s t : String} (hs : Quiet s) (ht : Quiet t) : Quiet (s ++ t) := by
  rw [Quiet, String.toList_append, List.mem_append, List.mem_append]
  exact ⟨fun h => h.elim hs.1 ht.1, fun h => h.elim hs.2 ht.2⟩

theorem not_mem_utf8Bytes {s : String} {c : Char} (hascii : c.toNat < 0x80) (h : c ∉ s.toList) :
    UInt8.ofNat c.toNat ∉ utf8Bytes s := by
  intro hmem
  have hlow : UInt8.ofNat c.toNat < 0x80 := by
    rw [UInt8.lt_iff_toNat_lt, toNat_ofNat_of_lt (by omega)]
    exact hascii
  obtain ⟨d, hd, heq, hsmall⟩ := mem_of_mem_utf8Bytes hmem hlow
  have hnat : c.toNat = d.toNat := by
    rw [← toNat_ofNat_of_lt (show c.toNat < 256 by omega), heq, toNat_ofNat_of_lt (by omega)]
  rw [Char.toNat_inj.1 hnat] at h
  exact h hd

theorem Quiet.plain {s : String} (h : Quiet s) : xmlMarks.Plain (utf8Bytes s) := by
  constructor
  · exact not_mem_utf8Bytes (by decide) h.1
  · exact not_mem_utf8Bytes (by decide) h.2

/-- A character that is replaced is gone, and nothing comes that the replacement has not. -/
theorem not_mem_replaceChar {value replacement : String} {c d : Char}
    (hnew : d ∉ replacement.toList) (h : d = c ∨ d ∉ value.toList) :
    d ∉ (replaceChar value c replacement).toList := by
  rw [replaceChar, String.toList_ofList, List.mem_flatMap]
  intro ⟨e, he, hd⟩
  split at hd
  · exact hnew hd
  · next hne =>
    rw [List.mem_singleton] at hd
    subst hd
    exact h.elim hne fun hno => hno he

theorem quiet_escapeAttribute (value : String) : Quiet (escapeAttribute value) := by
  constructor
  · exact not_mem_replaceChar (by decide) (.inr (not_mem_replaceChar (by decide) (.inl rfl)))
  · exact not_mem_replaceChar (by decide) (.inl rfl)

theorem quiet_repr (n : Nat) : Quiet n.repr := by
  have hdigit : ∀ c ∈ n.repr.toList, c.isDigit = true := fun c hc =>
    Nat.isDigit_of_mem_toDigits (by decide) (by decide) (Nat.toList_repr (n := n) ▸ hc)
  constructor
  · exact fun h => absurd (hdigit _ h) (by decide)
  · exact fun h => absurd (hdigit _ h) (by decide)

theorem quiet_artifactAttributes (platform : Platform) (artifact : Artifact) :
    Quiet (artifactAttributes platform artifact) := by
  have hurl := (by decide : Quiet " platform=\"").append (quiet_escapeAttribute platform.feedName)
    |>.append (by decide : Quiet "\" url=\"") |>.append (quiet_escapeAttribute artifact.url)
  have hlength := hurl.append (by decide : Quiet "\" length=\"")
    |>.append (quiet_repr artifact.contentLength.toNat)
  have hsignature := hlength.append (by decide : Quiet "\" sparkle:edSignature=\"")
    |>.append (quiet_escapeAttribute artifact.ed25519Signature)
    |>.append (by decide : Quiet "\"")
  unfold artifactAttributes
  cases artifact.sha256 with
  | none => exact hsignature.append (by decide : Quiet "")
  | some sha256 =>
    exact hsignature.append (((by decide : Quiet " sha256=\"").append
      (quiet_escapeAttribute sha256)).append (by decide : Quiet "\""))

/-- What is put in: blanks, and the tag of an empty element. -/
theorem artifactElement_eq (platform : Platform) (artifact : Artifact) : ∃ inner,
    artifactElement platform artifact =
      utf8Bytes "\n            " ++ xmlMarks.emptyTag inner ∧
    xmlMarks.Plain inner ∧ inner.head? ≠ some 47 := by
  refine ⟨utf8Bytes ("superiority:artifact" ++ artifactAttributes platform artifact ++ " /"), ?_,
    ?_, ?_⟩
  · have hfront : utf8Bytes "\n            <superiority:artifact" =
        utf8Bytes "\n            " ++ 60 :: utf8Bytes "superiority:artifact" := by decide
    have hback : utf8Bytes " />" = utf8Bytes " /" ++ [62] := by decide
    rw [artifactElement, utf8Bytes_append, utf8Bytes_append, hfront, hback, utf8Bytes_append,
      utf8Bytes_append, Marks.emptyTag]
    simp [xmlMarks]
  · exact (((by decide : Quiet "superiority:artifact").append
      (quiet_artifactAttributes platform artifact)).append (by decide : Quiet " /")).plain
  · have hstart : utf8Bytes "superiority:artifact" = 115 :: utf8Bytes "uperiority:artifact" := by
      decide
    rw [utf8Bytes_append, utf8Bytes_append, hstart]
    simp

/-! ## The edits -/

theorem insertStr_ok {text inserted out : Xml} {index : Nat}
    (h : insertStr text index inserted = .ok out) :
    out = text.take index ++ inserted ++ text.drop index := by
  rw [insertStr] at h
  split at h
  · exact (Except.ok.inj h).symm
  · cases h

/-- The text as it is, or with the declaration put in somewhere. -/
theorem ensureNamespace_ok {xml out : Xml} (h : ensureNamespace xml = .ok out) :
    out = xml ∨ ∃ i, out = xml.take i ++ (utf8Bytes " " ++ declaration) ++ xml.drop i := by
  rw [ensureNamespace] at h
  split at h
  · exact .inl (Except.ok.inj h).symm
  · split at h
    · cases h
    · split at h
      · cases h
      · split at h
        · cases h
        · exact .inr ⟨_, insertStr_ok h⟩

theorem gauge_ensureNamespace_le {xml out : Xml} (h : ensureNamespace xml = .ok out) :
    xmlMarks.gauge out ≤ xmlMarks.gauge xml := by
  rcases ensureNamespace_ok h with rfl | ⟨i, rfl⟩
  · exact le_rfl
  · have hplain : xmlMarks.Plain (utf8Bytes " " ++ declaration) := by
      rw [declaration, ← utf8Bytes_append]
      exact (by decide +kernel : Quiet (" " ++ ("xmlns:superiority=\"" ++ superiorityNamespace ++
        "\""))).plain
    have hle : xmlMarks.gauge (xml.take i ++ (utf8Bytes " " ++ declaration) ++ xml.drop i) ≤
        xmlMarks.gauge (xml.take i ++ xml.drop i) :=
      Marks.gauge_plain_le hplain (by decide +kernel)
    rwa [List.take_append_drop] at hle

/-- The range encloses the same element in a text that is the same up to its end. -/
theorem ByteRange.Encloses.of_take {xml out : Xml} {r : ByteRange} {n : Nat}
    (h : r.Encloses xml) (hn : r.stop ≤ n) (hsame : out.take n = xml.take n)
    (hlength : n ≤ out.length) : r.Encloses out := by
  have htake (k : Nat) (hk : k ≤ n) : out.take k = xml.take k := by
    rw [← Nat.min_eq_left hk, ← List.take_take, hsame, List.take_take]
  refine ⟨h.ordered, hn.trans hlength, ?_, ?_⟩
  · rw [htake _ (h.ordered.trans hn)]
    exact h.outside
  · rw [htake _ hn]
    exact h.element

theorem gauge_removeRange_le {xml out : Xml} {r : ByteRange} (hr : r.Encloses xml)
    (h : removeRange xml r = .ok out) :
    out = xml.take r.start ++ xml.drop r.stop ∧ xmlMarks.gauge out ≤ xmlMarks.gauge xml := by
  rw [removeRange] at h
  split at h
  · obtain rfl := (Except.ok.inj h).symm
    refine ⟨rfl, ?_⟩
    have hcut : xmlMarks.gauge (xml.take r.start ++ xml.drop r.stop) ≤ xmlMarks.gauge
        (xml.take r.start ++ (xml.take r.stop).drop r.start ++ xml.drop r.stop) :=
      Marks.gauge_cut_le hr.outside hr.element
    have hjoin : xml.take r.start ++ (xml.take r.stop).drop r.start ++ xml.drop r.stop = xml := by
      have htake : xml.take r.start = (xml.take r.stop).take r.start := by
        rw [List.take_take, Nat.min_eq_left hr.ordered]
      rw [htake, List.take_append_drop, List.take_append_drop]
    rwa [hjoin] at hcut
  · cases h

/-- The loop goes from the last range to the first, so the ranges before it stay exact. -/
theorem gauge_removeRanges_le {ranges : List ByteRange} {xml out : Xml}
    (hranges : ∀ r ∈ ranges, r.Encloses xml)
    (hordered : ranges.Pairwise fun r s => r.stop ≤ s.start)
    (h : removeRanges xml ranges = .ok out) : xmlMarks.gauge out ≤ xmlMarks.gauge xml := by
  rw [removeRanges] at h
  have hback : ranges.reverse.Pairwise fun r s => s.stop ≤ r.start := List.pairwise_reverse.2 hordered
  have hall : ∀ r ∈ ranges.reverse, r.Encloses xml := fun r hr => hranges r (List.mem_reverse.1 hr)
  generalize ranges.reverse = backwards at h hback hall
  clear hranges hordered
  induction backwards generalizing xml with
  | nil => rw [Except.ok.inj h]
  | cons r backwards ih =>
    rw [List.foldlM_cons] at h
    obtain ⟨between, hone, hrest⟩ := except_bind_ok.1 h
    obtain ⟨hbefore, hback⟩ := List.pairwise_cons.1 hback
    have hr := hall r List.mem_cons_self
    obtain ⟨heq, hle⟩ := gauge_removeRange_le hr hone
    refine (ih hrest hback fun s hs => ?_).trans hle
    have hlength : (xml.take r.start).length = r.start := by
      rw [List.length_take]
      exact Nat.min_eq_left (hr.ordered.trans hr.inside)
    refine (hall s (List.mem_cons_of_mem r hs)).of_take (hbefore s hs) ?_ ?_
    · rw [heq, List.take_append_of_le_length (by rw [hlength]), List.take_take, Nat.min_self]
    · rw [heq, List.length_append, hlength]
      omega

/-- The element is put before the end tag of the item, or into it. -/
theorem gauge_insert_lt {xml out : Xml} {stop size : Nat} {platform : Platform}
    {artifact : Artifact} (htag : EndTagAt xml stop size) (hsize : 4 ≤ size)
    (h : insertStr xml (stop - 7) (artifactElement platform artifact) = .ok out) :
    xmlMarks.gauge out < xmlMarks.gauge xml := by
  obtain ⟨inner, helement, hinner, hstart⟩ := artifactElement_eq platform artifact
  have hblank := (by decide : Quiet "\n            ").plain
  obtain ⟨hfits, hinside, houtside, name, hname, hplain⟩ := htag
  have hplace : xmlMarks.leaves false (xml.take (stop - 7)) = false ∨
      ∃ tag rest, xml.drop (stop - 7) = tag ++ xmlMarks.closing :: rest ∧ xmlMarks.Plain tag ∧
        tag ≠ [] := by
    have hlength := congrArg List.length hname
    simp only [List.length_drop, List.length_take, List.length_cons, List.length_append,
      List.length_nil, Nat.min_eq_left hinside] at hlength
    rcases hsize.eq_or_lt with rfl | hlong
    · exact .inl houtside
    · -- The position lies inside the end tag, behind its opening.
      refine .inr ⟨(47 :: name).drop (size - 5), xml.drop stop, ?_, ?_, ?_⟩
      · have hdrop : (xml.take stop).drop (stop - 7) = (47 :: name).drop (size - 5) ++ [62] := by
          have hsplit : stop - 7 = (stop - size - 3) + (size - 5 + 1) := by omega
          rw [hsplit, ← List.drop_drop, hname, List.cons_append, List.cons_append, List.drop_succ_cons,
            ← List.cons_append, List.drop_append_of_le_length (by simp; omega)]
        have hjoin : xml.drop (stop - 7) = (xml.take stop).drop (stop - 7) ++ xml.drop stop := by
          have hle : stop - 7 ≤ (xml.take stop).length := by
            rw [List.length_take]
            omega
          rw [← List.drop_append_of_le_length hle, List.take_append_drop]
        rw [hjoin, hdrop]
        simp [xmlMarks]
      · have hslash : xmlMarks.Plain (47 :: name) := by
          simpa [Marks.Plain, xmlMarks] using hplain
        exact ⟨fun hmem => hslash.1 (List.mem_of_mem_drop hmem),
          fun hmem => hslash.2 (List.mem_of_mem_drop hmem)⟩
      · intro hnil
        have hzero := congrArg List.length hnil
        rw [List.length_drop, List.length_cons, List.length_nil] at hzero
        omega
  have hlt := Marks.gauge_element_lt hblank (by decide) (by decide) hinner hstart hplace
  rw [← helement, List.take_append_drop] at hlt
  rwa [insertStr_ok h]

/-! ## One addition -/

theorem XmlNode.mem_descendants_self (node : XmlNode) : node ∈ node.descendants := by
  cases node
  exact List.mem_cons_self

theorem XmlNode.mem_descendantsOfAll {nodes : List XmlNode} {node : XmlNode}
    (h : node ∈ XmlNode.descendantsOfAll nodes) : ∃ root ∈ nodes, node ∈ root.descendants := by
  induction nodes with
  | nil => cases h
  | cons root nodes ih =>
    rw [descendantsOfAll, List.mem_append] at h
    rcases h with h | h
    · exact ⟨root, List.mem_cons_self, h⟩
    · obtain ⟨root', hroot, hnode⟩ := ih h
      exact ⟨root', List.mem_cons_of_mem root hroot, hnode⟩

theorem XmlNode.descendants_subset {nodes : List XmlNode} {root node : XmlNode}
    (hroot : root ∈ nodes) (h : node ∈ root.descendants) :
    node ∈ XmlNode.descendantsOfAll nodes := by
  induction nodes with
  | nil => cases hroot
  | cons first nodes ih =>
    rw [descendantsOfAll, List.mem_append]
    rcases List.mem_cons.1 hroot with rfl | hroot
    · exact .inl h
    · exact .inr (ih hroot)

/-- The children of what a document contains are in it. -/
theorem XmlNode.child_mem (root : XmlNode) {node child : XmlNode} (hnode : node ∈ root.descendants)
    (hchild : child ∈ node.children) : child ∈ root.descendants := by
  match root with
  | mk element range children =>
    rw [descendants] at hnode ⊢
    rcases List.mem_cons.1 hnode with rfl | hbelow
    · exact List.mem_cons_of_mem _ (descendants_subset hchild child.mem_descendants_self)
    · obtain ⟨below, hmem, hnode⟩ := mem_descendantsOfAll hbelow
      exact List.mem_cons_of_mem _ (descendants_subset hmem (below.child_mem hnode hchild))

theorem parseDocument_ok {xml : Xml} {root : XmlNode} (h : parseDocument p xml = .ok root) :
    p.parse xml = .ok root := by
  rw [parseDocument] at h
  cases hparse : p.parse xml with
  | error message => rw [hparse] at h; cases h
  | ok root' =>
    rw [hparse] at h
    rw [Except.ok.inj h]

theorem findReleaseItem_ok {document release : XmlNode} {build : String}
    (h : findReleaseItem p document build = .ok release) :
    release ∈ document.descendants ∧ release.element.name = "item" ∧ release.children ≠ [] := by
  have hfound := okOr_ok.1 h
  have hmem := List.mem_filter.1 (List.mem_of_find?_eq_some hfound)
  have hbuild := List.find?_some hfound
  refine ⟨hmem.1, by simpa [XmlNode.isItem] using hmem.2, fun hnil => ?_⟩
  simp [XmlNode.item, hnil, hasBuild] at hbuild

/-- What an addition that succeeded has done. -/
structure Added (p : XmlParser) (xml : Xml) (build : String) (platform : Platform)
    (artifact : Artifact) (out : Xml) where
  declared : Xml
  before : XmlNode
  release : XmlNode
  rest : Xml
  after : XmlNode
  release' : XmlNode
  releases : List Release
  published : Release
  ensured : ensureNamespace xml = .ok declared
  parsed : p.parse declared = .ok before
  found : findReleaseItem p before build = .ok release
  removed : removeRanges declared (existingArtifacts p release platform) = .ok rest
  parsed' : p.parse rest = .ok after
  found' : findReleaseItem p after build = .ok release'
  inserted : insertStr rest (release'.range.stop - 7) (artifactElement platform artifact) = .ok out
  readBack : parseAppcast p out platform = .ok releases
  listed : releases.find? (·.build = build) = some published
  same : published.artifact = artifact

theorem addPlatformArtifact_ok {xml out : Xml} {build : String} {platform : Platform}
    {artifact : Artifact} (h : addPlatformArtifact p xml build platform artifact = .ok out) :
    Nonempty (Added p xml build platform artifact out) := by
  rw [addPlatformArtifact] at h
  split at h
  · cases h
  obtain ⟨declared, ensured, h⟩ := except_bind_ok.1 h
  obtain ⟨before, parsed, h⟩ := except_bind_ok.1 h
  obtain ⟨release, found, h⟩ := except_bind_ok.1 h
  obtain ⟨rest, removed, h⟩ := except_bind_ok.1 h
  obtain ⟨after, parsed', h⟩ := except_bind_ok.1 h
  obtain ⟨release', found', h⟩ := except_bind_ok.1 h
  obtain ⟨closing, hclosing, hinsert⟩ := except_bind_ok.1 h
  obtain ⟨output, inserted, hread⟩ := except_bind_ok.1 hinsert
  obtain ⟨releases, readBack, hmatch⟩ := except_bind_ok.1 hread
  have hseven : (utf8Bytes "</item>").length = 7 := by decide
  rw [hseven, Checked.ofExcept_ok, okOr_ok, checkedSub] at hclosing
  split at hclosing
  · obtain rfl := Option.some.inj hclosing
    split at hmatch
    · cases hmatch
    · next published listed =>
      split at hmatch
      · cases hmatch
      · next hsame =>
        obtain rfl := Except.ok.inj hmatch
        exact ⟨{
          declared, before, release, rest, after, release', releases, published, ensured
          parsed := parseDocument_ok (Checked.ofExcept_ok.1 parsed)
          found := Checked.ofExcept_ok.1 found
          removed
          parsed' := parseDocument_ok (Checked.ofExcept_ok.1 parsed')
          found' := Checked.ofExcept_ok.1 found'
          inserted
          readBack := Checked.ofExcept_ok.1 readBack
          listed
          same := by_contra hsame }⟩
  · cases hclosing

/-- Whatever it replaces, an addition lowers the gauge. -/
theorem gauge_addPlatformArtifact {xml out : Xml} {build : String} {platform : Platform}
    {artifact : Artifact} (h : addPlatformArtifact p xml build platform artifact = .ok out) :
    xmlMarks.gauge out < xmlMarks.gauge xml := by
  obtain ⟨a⟩ := addPlatformArtifact_ok h
  have hexact := p.exact _ _ a.parsed _ (findReleaseItem_ok a.found).1
  have hremoved : xmlMarks.gauge a.rest ≤ xmlMarks.gauge a.declared := by
    refine gauge_removeRanges_le (fun r hr => ?_) ?_ a.removed
    · obtain ⟨child, hchild, rfl⟩ := List.mem_map.1 hr
      exact hexact.encloses child (List.mem_filter.1 hchild).1
    · exact List.pairwise_map.2 (hexact.ordered.filter _)
  obtain ⟨hmem, hitem, hchildren⟩ := findReleaseItem_ok a.found'
  obtain ⟨size, hsize, htag⟩ := (p.exact _ _ a.parsed' _ hmem).endTag hchildren
  have hfour : (utf8Bytes "item").length = 4 := by decide
  rw [hitem, hfour] at hsize
  calc xmlMarks.gauge out < xmlMarks.gauge a.rest := gauge_insert_lt htag hsize a.inserted
    _ ≤ xmlMarks.gauge a.declared := hremoved
    _ ≤ xmlMarks.gauge xml := gauge_ensureNamespace_le a.ensured

/-! ## The builds of a feed -/

/-- A release that is read has the build of a version element of its item. -/
theorem exists_version_of_parseRelease {r : FeedReader} {item : Item} {platform : Platform}
    {release : Release} (h : parseRelease r item platform = .ok (some release)) :
    ∃ node ∈ item, node.isVersion = true ∧ (node.read r).map trim = some release.build := by
  have hbuild := itemBuild_of_texts (parseRelease_some h)
  obtain ⟨text, htext, htrim⟩ := Option.map_eq_some_iff.1 hbuild
  obtain ⟨node, hnode, hread⟩ := Option.bind_eq_some_iff.1 htext
  refine ⟨node, List.mem_of_find?_eq_some hnode, List.find?_some hnode, ?_⟩
  rw [hread, Option.map_some, htrim]

/-- The build of a release that is read is one of the feed's. -/
theorem mem_releaseBuilds {xml : Xml} {platform : Platform} {releases : List Release}
    {release : Release} (h : parseAppcast p xml platform = .ok releases)
    (hrelease : release ∈ releases) :
    ∃ builds, releaseBuilds p xml = .ok builds ∧ release.build ∈ builds := by
  obtain ⟨document, hdocument, hcollected⟩ := except_bind_ok.1 h
  obtain ⟨collected, hcollect, hsome⟩ := except_bind_ok.1 hcollected
  have hsame : collected = releases := by
    split at hsome
    · cases hsome
    · exact Except.ok.inj hsome
  subst hsame
  obtain ⟨item, hitem, hread⟩ := exists_of_mem_collectSome hcollect hrelease
  obtain ⟨node, hnode, rfl⟩ := List.mem_map.1 hitem
  obtain ⟨element, helement, hversion, htext⟩ := exists_version_of_parseRelease hread
  obtain ⟨child, hchild, rfl⟩ := List.mem_map.1 helement
  refine ⟨_, by rw [releaseBuilds, hdocument]; rfl, ?_⟩
  refine List.mem_filterMap.2 ⟨child, List.mem_filter.2 ⟨?_, hversion⟩, htext⟩
  exact document.child_mem (List.mem_filter.1 hnode).1 hchild

/-! ## Carrying over -/

/-- The releases of the older copy whose artifacts are carried over. -/
def carried (p : XmlParser) (generated previous : Xml) (platform : Platform) : List Release :=
  match releaseBuilds p generated, parseAppcast p previous platform with
  | .ok builds, .ok releases => releases.filter fun release => builds.any (· = release.build)
  | _, _ => []

/-- A Windows artifact of the older copy goes to a build of the feed. -/
def CarriesSome (p : XmlParser) (generated previous : Xml) : Prop :=
  ∃ platform ≠ Platform.macOs, carried p generated previous platform ≠ []

/-- What the loops do, from the builds of the feed: the text stays while nothing is carried, then
each addition lowers the gauge and leaves its own build in the text. -/
structure Progress (p : XmlParser) (previous : Xml) (start now : Xml) : Prop where
  gauge : xmlMarks.gauge now ≤ xmlMarks.gauge start
  moved : now = start ∨ xmlMarks.gauge now < xmlMarks.gauge start ∧ CarriesSome p now previous

theorem Progress.refl (previous start : Xml) : Progress p previous start start :=
  ⟨le_rfl, .inl rfl⟩

theorem Progress.trans {previous start between now : Xml}
    (h : Progress p previous start between) (h' : Progress p previous between now) :
    Progress p previous start now := by
  refine ⟨h'.gauge.trans h.gauge, ?_⟩
  rcases h'.moved with rfl | ⟨hlt, hcarries⟩
  · exact h.moved
  · exact .inr ⟨hlt.trans_le h.gauge, hcarries⟩

/-- One release: it is carried exactly when its build is there. -/
theorem preserveRelease_ok {builds : List String} {previous output out : Xml}
    {platform : Platform} {releases : List Release} {release : Release}
    (hprevious : parseAppcast p previous platform = .ok releases) (hmac : platform ≠ .macOs)
    (hrelease : release ∈ releases)
    (h : preserveRelease p builds platform output release = .ok out) :
    Progress p previous output out ∧ (release.build ∈ builds ↔ out ≠ output) := by
  rw [preserveRelease] at h
  split at h
  · next hcarried =>
    have hlt := gauge_addPlatformArtifact h
    obtain ⟨a⟩ := addPlatformArtifact_ok h
    have hlisted := List.mem_of_find?_eq_some a.listed
    have hbuild : a.published.build = release.build := by
      simpa using List.find?_some a.listed
    obtain ⟨now, hnow, hmem⟩ := mem_releaseBuilds a.readBack hlisted
    rw [hbuild] at hmem
    have hcarries : CarriesSome p out previous := by
      refine ⟨platform, hmac, ?_⟩
      rw [carried, hnow, hprevious]
      exact List.ne_nil_of_mem (List.mem_filter.2 ⟨hrelease, List.any_eq_true.2 ⟨_, hmem, by simp⟩⟩)
    refine ⟨⟨hlt.le, .inr ⟨hlt, hcarries⟩⟩, ?_⟩
    exact ⟨fun _ heq => lt_irrefl _ (heq ▸ hlt), fun _ => by simpa using hcarried⟩
  · next hnone =>
    obtain rfl := Except.ok.inj h
    exact ⟨.refl _ _, fun hmem => absurd (by simpa using hmem) hnone, fun hne => absurd rfl hne⟩

theorem preservePlatform_ok {builds : List String} {previous output out : Xml}
    {platform : Platform} (hmac : platform ≠ .macOs)
    (h : preservePlatform p builds previous output platform = .ok out) :
    Progress p previous output out ∧ ∀ releases, parseAppcast p previous platform = .ok releases →
      (∃ release ∈ releases, release.build ∈ builds) → xmlMarks.gauge out < xmlMarks.gauge output := by
  rw [preservePlatform] at h
  split at h
  · next message hparse =>
    obtain rfl := Except.ok.inj h
    exact ⟨.refl _ _, fun releases hok => by rw [hparse] at hok; cases hok⟩
  · next releases hparse =>
    have hstep : ∀ release ∈ releases, ∀ s t, preserveRelease p builds platform s release = .ok t →
        Progress p previous s t := fun release hrelease s t hone =>
      (preserveRelease_ok hparse hmac hrelease hone).1
    refine ⟨foldlM_relates (Progress.refl previous) (fun _ _ _ => Progress.trans) hstep h, ?_⟩
    intro releases' hok ⟨release, hrelease, hbuild⟩
    obtain rfl := Except.ok.inj (hparse.symm.trans hok)
    obtain ⟨u, v, hbefore, hone, hafter⟩ :=
      foldlM_passes (Progress.refl previous) (fun _ _ _ => Progress.trans) hstep h hrelease
    obtain ⟨hprogress, hcarried⟩ := preserveRelease_ok hparse hmac hrelease hone
    have hlt := (hprogress.moved.resolve_left (hcarried.1 hbuild)).1
    exact (hafter.gauge.trans_lt hlt).trans_le hbefore.gauge

theorem mem_carried {builds : List String} {generated previous : Xml} {platform : Platform}
    {release : Release} (hbuilds : releaseBuilds p generated = .ok builds) :
    release ∈ carried p generated previous platform ↔ ∃ releases,
      parseAppcast p previous platform = .ok releases ∧ release ∈ releases ∧
        release.build ∈ builds := by
  rw [carried, hbuilds]
  cases parseAppcast p previous platform <;> simp

theorem ne_macOs_of_mem {platform : Platform}
    (h : platform ∈ [Platform.windowsX86_64, .windowsAarch64]) : platform ≠ .macOs := by
  intro hmac
  simp [hmac] at h

/-- The older copy is read for both platforms, and whatever it carries lowers the gauge. -/
theorem preservePlatformArtifacts_ok {generated previous out : Xml}
    (h : preservePlatformArtifacts p generated previous = .ok out) :
    Progress p previous generated out ∧
      (CarriesSome p generated previous → xmlMarks.gauge out < xmlMarks.gauge generated) := by
  obtain ⟨builds, hbuilds, hloop⟩ := except_bind_ok.1 h
  rw [Checked.ofExcept_ok] at hbuilds
  have hstep : ∀ platform ∈ [Platform.windowsX86_64, .windowsAarch64], ∀ s t,
      preservePlatform p builds previous s platform = .ok t → Progress p previous s t :=
    fun platform hplatform s t hone => (preservePlatform_ok (ne_macOs_of_mem hplatform) hone).1
  refine ⟨foldlM_relates (Progress.refl previous) (fun _ _ _ => Progress.trans) hstep hloop, ?_⟩
  intro ⟨platform, hmac, hsome⟩
  have hplatform : platform ∈ [Platform.windowsX86_64, .windowsAarch64] := by
    cases platform <;> simp_all
  obtain ⟨u, v, hbefore, hone, hafter⟩ :=
    foldlM_passes (Progress.refl previous) (fun _ _ _ => Progress.trans) hstep hloop hplatform
  obtain ⟨release, hrelease⟩ := List.exists_mem_of_ne_nil _ hsome
  obtain ⟨releases, hparse, hmem, hbuild⟩ := (mem_carried hbuilds).1 hrelease
  have hlt := (preservePlatform_ok hmac hone).2 releases hparse ⟨release, hmem, hbuild⟩
  exact (hafter.gauge.trans_lt hlt).trans_le hbefore.gauge

/-- When the older copy carries nothing, the text stays. -/
theorem preservePlatformArtifacts_same {generated previous out : Xml}
    (hnone : ¬ CarriesSome p generated previous)
    (h : preservePlatformArtifacts p generated previous = .ok out) : out = generated := by
  obtain ⟨builds, hbuilds, hloop⟩ := except_bind_ok.1 h
  rw [Checked.ofExcept_ok] at hbuilds
  refine (foldlM_relates (R := Eq) (fun _ => rfl) (fun _ _ _ => Eq.trans) ?_ hloop).symm
  intro platform hplatform s t hone
  have hmac := ne_macOs_of_mem hplatform
  rw [preservePlatform] at hone
  split at hone
  · exact Except.ok.inj hone
  · next releases hparse =>
    refine foldlM_relates (R := Eq) (fun _ => rfl) (fun _ _ _ => Eq.trans) ?_ hone
    intro release hrelease s t hone
    refine by_contra fun hne => hnone ⟨platform, hmac, List.ne_nil_of_mem (a := release) ?_⟩
    have hbuild := (preserveRelease_ok hparse hmac hrelease hone).2.2 (Ne.symm hne)
    exact (mem_carried hbuilds).2 ⟨releases, hparse, hrelease, hbuild⟩

/-! ## The law -/

/-- The releases of the build that a client of the platform reads. -/
def releasesOf (p : XmlParser) (xml : Xml) (platform : Platform) (build : String) : List Release :=
  ((parseAppcast p xml platform).toOption.getD []).filter (·.build = build)

/-- Without the inserted element, and without the declaration if one was inserted, the result is
the input without the earlier artifacts of the platform and build. -/
def Undoes (p : XmlParser) (xml : Xml) (build : String) (platform : Platform) (artifact : Artifact)
    (out : Xml) : Prop :=
  ∃ declared document release rest closing,
    (declared = xml ∨ ∃ i, declared = xml.take i ++ (utf8Bytes " " ++ declaration) ++ xml.drop i) ∧
    p.parse declared = .ok document ∧ findReleaseItem p document build = .ok release ∧
    removeRanges declared (existingArtifacts p release platform) = .ok rest ∧
    out = rest.take closing ++ artifactElement platform artifact ++ rest.drop closing

/-- Adding the artifact is conservative and idempotent. -/
structure Conservative (p : XmlParser) (xml : Xml) (build : String) (platform : Platform)
    (artifact : Artifact) (out : Xml) : Prop where
  undoes : Undoes p xml build platform artifact out
  others : ∀ platform' build', (platform', build') ≠ (platform, build) →
    releasesOf p out platform' build' = releasesOf p xml platform' build'
  again : addPlatformArtifact p out build platform artifact = .ok out

/-- Carrying over is idempotent, and carries exactly the Windows artifacts of the older copy for the
builds that are present. -/
structure Preserved (p : XmlParser) (generated previous out : Xml) : Prop where
  again : preservePlatformArtifacts p out previous = .ok out
  carries : ∀ platform, ∀ release ∈ carried p generated previous platform, platform ≠ .macOs →
    ∃ release' ∈ carried p generated previous platform, release'.build = release.build ∧
      ∃ read ∈ releasesOf p out platform release.build, read.artifact = release'.artifact
  nothingElse : ∀ platform build,
    (∀ release ∈ carried p generated previous platform, platform ≠ .macOs → release.build ≠ build) →
    releasesOf p out platform build = releasesOf p generated platform build

theorem undoes_of_ok {xml out : Xml} {build : String} {platform : Platform} {artifact : Artifact}
    (h : addPlatformArtifact p xml build platform artifact = .ok out) :
    Undoes p xml build platform artifact out := by
  obtain ⟨a⟩ := addPlatformArtifact_ok h
  exact ⟨a.declared, a.before, a.release, a.rest, _, ensureNamespace_ok a.ensured, a.parsed, a.found,
    a.removed, insertStr_ok a.inserted⟩

/-- No addition that succeeds is conservative. -/
theorem not_conservative {xml out : Xml} {build : String} {platform : Platform}
    {artifact : Artifact} : ¬ Conservative p xml build platform artifact out :=
  fun h => lt_irrefl _ (gauge_addPlatformArtifact h.again)

/-- Adding an artifact only adds, but adding it again never gives the same text; carrying artifacts
over is idempotent exactly when there is nothing to carry. -/
theorem carriedOver (p : XmlParser) :
    (∀ xml build platform artifact out,
      addPlatformArtifact p xml build platform artifact = .ok out →
        Undoes p xml build platform artifact out ∧
          ¬ Conservative p xml build platform artifact out) ∧
      ∀ generated previous out, preservePlatformArtifacts p generated previous = .ok out →
        (Preserved p generated previous out ↔
          ∀ platform ≠ Platform.macOs, carried p generated previous platform = []) := by
  refine ⟨fun xml build platform artifact out h => ⟨undoes_of_ok h, not_conservative⟩, ?_⟩
  intro generated previous out h
  constructor
  · intro hpreserved
    by_contra hsome
    push Not at hsome
    obtain ⟨hprogress, hstrict⟩ := preservePlatformArtifacts_ok h
    have hlt := hstrict hsome
    have hcarries : CarriesSome p out previous := by
      rcases hprogress.moved with rfl | ⟨-, hcarries⟩
      · exact hsome
      · exact hcarries
    exact lt_irrefl _ ((preservePlatformArtifacts_ok hpreserved.again).2 hcarries)
  · intro hnone
    obtain rfl := preservePlatformArtifacts_same (fun ⟨platform, hmac, hsome⟩ =>
      hsome (hnone platform hmac)) h
    refine ⟨h, fun platform release hrelease hmac => ?_, fun platform build _ => rfl⟩
    rw [hnone platform hmac] at hrelease
    cases hrelease

/-! ## A feed to which the artifact is added twice -/

def exampleArtifact : Artifact :=
  { url := "https://example.test/w.zip"
    contentLength := 84
    ed25519Signature := "windows"
    sha256 := none }

def exampleRoot : Xml :=
  utf8Bytes "<rss xmlns:sparkle=\"http://www.andymatuschak.org/xml-namespaces/sparkle\" "
    ++ declaration ++ utf8Bytes ">"

def exampleVersion : Xml := utf8Bytes "<sparkle:version>26</sparkle:version>"

def exampleTitle : Xml := utf8Bytes "<title>0.1.26</title>"

/-- The blanks that earlier additions left, and the artifact if it is there. -/
def exampleExtension (rounds : Nat) (added : Bool) : Xml :=
  (List.replicate rounds (utf8Bytes "\n            ")).flatten ++
    if added then artifactElement .windowsX86_64 exampleArtifact else []

def exampleFeed (rounds : Nat) (added : Bool) : Xml :=
  exampleRoot ++ utf8Bytes "<channel><item>" ++ exampleVersion ++ exampleTitle ++
    exampleExtension rounds added ++ utf8Bytes "</item></channel></rss>"

def plainElement (name : String) : Element :=
  { tagNamespace := none, name, attributes := [], content := none }

def exampleDocument (rounds : Nat) (added : Bool) : XmlNode :=
  let channel := exampleRoot.length
  let item := channel + 9
  let version := item + 6
  let title := version + exampleVersion.length
  let behind := title + exampleTitle.length
  let closing := behind + (exampleExtension rounds added).length
  .mk (plainElement "rss") ⟨0, closing + 23⟩ [
    .mk (plainElement "channel") ⟨channel, closing + 17⟩ [
      .mk (plainElement "item") ⟨item, closing + 7⟩ ([
        .mk (textElement sparkleNamespace "version" "26") ⟨version, title⟩ [],
        .mk (textElement none "title" "0.1.26") ⟨title, behind⟩ []] ++
        if added then
          [.mk (Updater.artifactElement .windowsX86_64 exampleArtifact)
            ⟨behind + 13 * (rounds + 1), closing⟩ []]
        else [])]]

/-- What the parser gives for the feeds of the example. -/
def exampleParse (xml : Xml) : Except String XmlNode :=
  if xml = exampleFeed 0 false then .ok (exampleDocument 0 false)
  else if xml = exampleFeed 0 true then .ok (exampleDocument 0 true)
  else if xml = exampleFeed 1 false then .ok (exampleDocument 1 false)
  else if xml = exampleFeed 1 true then .ok (exampleDocument 1 true)
  else .error "unexpected text"

/-- The checks of an exact element, when the name in its end tag has no prefix. -/
def XmlNode.check (xml : Xml) (node : XmlNode) : Bool :=
  let stop := node.range.stop
  let size := (utf8Bytes node.element.name).length
  let name := (xml.take (stop - 1)).drop (stop - size - 1)
  let piece (r : ByteRange) := (xml.take r.stop).drop r.start
  let inner (r : ByteRange) := (piece r).tail.dropLast
  decide (node.children.Pairwise fun c d => c.range.stop ≤ d.range.start) &&
    node.children.all (fun child =>
      let r := child.range
      r.start ≤ r.stop && r.stop ≤ xml.length && !xmlMarks.leaves false (xml.take r.start) &&
        piece r == xmlMarks.emptyTag (inner r) &&
        (xmlMarks.endTags (piece r) != 0 || !(inner r).contains xmlMarks.opening)) &&
    (node.children.isEmpty ||
      size + 3 ≤ stop && stop ≤ xml.length &&
        !xmlMarks.leaves false (xml.take (stop - size - 3)) &&
        (xml.take stop).drop (stop - size - 3) == 60 :: 47 :: name ++ [62] &&
        !name.contains xmlMarks.opening && !name.contains xmlMarks.closing)

theorem XmlNode.exact_of_check {xml : Xml} {node : XmlNode} (h : node.check xml = true) :
    node.Exact xml := by
  simp only [check, Bool.and_eq_true, Bool.or_eq_true, List.all_eq_true, decide_eq_true_eq,
    Bool.not_eq_true', beq_iff_eq, bne_iff_ne, List.isEmpty_iff] at h
  obtain ⟨⟨hordered, hchildren⟩, hend⟩ := h
  refine ⟨hordered, fun child hchild => ?_, fun hsome => ?_⟩
  · obtain ⟨⟨⟨⟨hle, hinside⟩, houtside⟩, hpiece⟩, hone⟩ := hchildren child hchild
    refine ⟨hle, hinside, houtside, _, hpiece, fun hzero => ?_⟩
    simpa using hone.resolve_left (fun hne => hne hzero)
  · obtain ⟨⟨⟨⟨⟨hfits, hinside⟩, houtside⟩, htag⟩, hopen⟩, hclose⟩ := hend.resolve_left hsome
    exact ⟨_, le_rfl, hfits, hinside, houtside, _, htag, by simpa using hopen, by simpa using hclose⟩

def exampleChecks (rounds : Nat) (added : Bool) : Bool :=
  (exampleDocument rounds added).descendants.all (·.check (exampleFeed rounds added))

theorem exampleChecks_eq : (exampleChecks 0 false && exampleChecks 0 true && exampleChecks 1 false &&
    exampleChecks 1 true) = true := by
  decide +kernel

theorem exampleParse_exact (xml : Xml) (root : XmlNode) (h : exampleParse xml = .ok root) :
    ∀ node ∈ root.descendants, node.Exact xml := by
  have hexact (rounds : Nat) (added : Bool) (hcheck : exampleChecks rounds added = true) :
      ∀ node ∈ (exampleDocument rounds added).descendants, node.Exact (exampleFeed rounds added) :=
    fun node hnode => XmlNode.exact_of_check (List.all_eq_true.1 hcheck node hnode)
  have hchecks := exampleChecks_eq
  simp only [Bool.and_eq_true] at hchecks
  obtain ⟨⟨⟨hplain, hadded⟩, hblank⟩, hagain⟩ := hchecks
  rw [exampleParse] at h
  split_ifs at h with h0 h1 h2 h3
  · rw [h0, ← Except.ok.inj h]
    exact hexact 0 false hplain
  · rw [h1, ← Except.ok.inj h]
    exact hexact 0 true hadded
  · rw [h2, ← Except.ok.inj h]
    exact hexact 1 false hblank
  · rw [h3, ← Except.ok.inj h]
    exact hexact 1 true hagain

def exampleParser : XmlParser where
  parse := exampleParse
  parseUrl := .ok
  exact := exampleParse_exact

def exampleAdd (xml : Xml) : Checked Error Xml :=
  addPlatformArtifact exampleParser xml "26" .windowsX86_64 exampleArtifact

theorem exampleAdd_eq : exampleAdd (exampleFeed 0 false) = .ok (exampleFeed 0 true) ∧
    exampleAdd (exampleFeed 0 true) = .ok (exampleFeed 1 true) ∧
    exampleFeed 0 true ≠ exampleFeed 1 true := by
  decide +kernel

/-- The second addition leaves a line more. -/
theorem not_carriedOver : ¬ ∀ (p : XmlParser) (xml : Xml) (build : String) (platform : Platform)
    (artifact : Artifact) (out : Xml),
    addPlatformArtifact p xml build platform artifact = .ok out →
      Conservative p xml build platform artifact out := by
  intro h
  obtain ⟨hfirst, hsecond, hne⟩ := exampleAdd_eq
  have hagain := (h _ _ _ _ _ _ hfirst).again
  exact hne (Except.ok.inj (hagain.symm.trans hsecond))

theorem carriedOver_example :
    Undoes exampleParser (exampleFeed 0 false) "26" .windowsX86_64 exampleArtifact
      (exampleFeed 0 true) ∧
    ¬ Conservative exampleParser (exampleFeed 0 false) "26" .windowsX86_64 exampleArtifact
      (exampleFeed 0 true) :=
  (carriedOver exampleParser).1 _ _ _ _ _ exampleAdd_eq.1

end Superiority.Updater.FeedText
