import Mathlib.Logic.Function.Basic
import Superiority.Library.Run
import Superiority.Updater.Publishing

/-!
# Publishing withdraws nothing

A `Publication` is a feed with the record of what was published. The feed is `Faithful` when the
clients of every platform read of it exactly the recorded artifacts of the retained releases.

* **`Publication.faithful_iff`** – the feed stays faithful exactly when no whole release is
  published for a build that already has an artifact for another platform.
-/

namespace Superiority.Updater

variable (r : FeedReader)

/-! ## Publications -/

/-- The arguments that the two publishers of whole releases share. -/
structure Announcement where
  feedUrl : String
  title : String
  version : String
  build : String
  publishedAt : String
  notes : String
  artifact : Artifact
  maximumReleases : Nat

/-- A call of one of the publishers. -/
inductive Publish where
  | macos (release : Announcement) (minimumSystemVersion : String)
  | platform (release : Announcement) (platform : Platform)
  | add (build : String) (platform : Platform) (artifact : Artifact)

namespace Publish

def call (existing : Option Document) : Publish → Except Error Document
  | .macos a minimumSystemVersion =>
    publishMacosRelease r existing a.feedUrl a.title a.version a.build a.publishedAt
      minimumSystemVersion a.notes a.artifact a.maximumReleases
  | .platform a p =>
    publishPlatformRelease r existing a.feedUrl a.title a.version a.build a.publishedAt a.notes p
      a.artifact a.maximumReleases
  | .add b p artifact => addPlatformArtifact r existing b p artifact

def target : Publish → Platform
  | .macos _ _ => .macOs
  | .platform _ p => p
  | .add _ p _ => p

def build : Publish → String
  | .macos a _ => a.build
  | .platform a _ => a.build
  | .add b _ _ => b

def artifact : Publish → Artifact
  | .macos a _ => a.artifact
  | .platform a _ => a.artifact
  | .add _ _ artifact => artifact

/-- The number of releases that a call retains, if it publishes a whole release. -/
def retains : Publish → Option Nat
  | .macos a _ => some a.maximumReleases
  | .platform a _ => some a.maximumReleases
  | .add _ _ _ => none

end Publish

/-- A feed, and the record of the calls that wrote it: the retained releases, the newest first, by
the texts their readers were shown when they were published, and for each platform and build the
artifact most recently published. -/
structure Publication where
  document : Option Document := none
  retained : List ReleaseTexts := []
  published : Platform → String → Option Artifact := fun _ _ => none

namespace Publication

/-- What the readers of a platform are shown of a build. -/
def shown (document : Document) (platform : Platform) (build : String) : Option ReleaseTexts :=
  ((Appcast.parse r document platform).toOption.bind (·.find? (·.build = build))).map
    (·.toReleaseTexts)

/-- A call that returns a document replaces the feed. -/
def step (s : Publication) (op : Publish) : Publication :=
  match op.call r s.document with
  | .error _ => s
  | .ok document =>
    { document := some document
      retained := match op.retains with
        | none => s.retained
        | some maximumReleases =>
          (shown r document op.target op.build).toList
            ++ (s.retained.filter (·.build ≠ op.build)).take (maximumReleases - 1)
      published := Function.update s.published op.target
        (Function.update (s.published op.target) op.build (some op.artifact)) }

/-- The releases a platform should be offered. -/
def expected (s : Publication) (platform : Platform) : List Release :=
  s.retained.filterMap fun texts =>
    (s.published platform texts.build).map fun artifact => { texts with artifact }

/-- What a platform reads of the feed. Without a feed there is nothing for it. -/
def offered (s : Publication) (platform : Platform) : Except Error (List Release) :=
  match s.document with
  | none => .error (.unsupportedPlatform platform.feedName)
  | some document => Appcast.parse r document platform

/-- Every platform is offered exactly what was published for it. -/
def Faithful (s : Publication) : Prop :=
  ∀ platform, s.offered r platform =
    if s.expected platform = [] then .error (.unsupportedPlatform platform.feedName)
    else .ok (s.expected platform)

/-- The call returns a document. -/
def Accepts (s : Publication) (op : Publish) : Prop := ∃ document, op.call r s.document = .ok document

/-- A whole release is published for a build without an artifact for another platform. -/
def Alone (s : Publication) (op : Publish) : Prop :=
  op.retains = none ∨ ∀ platform, platform ≠ op.target → s.published platform op.build = none

instance (s : Publication) : Decidable (s.Faithful r) :=
  inferInstanceAs (Decidable (∀ platform, s.offered r platform =
    if s.expected platform = [] then .error (.unsupportedPlatform platform.feedName)
    else .ok (s.expected platform)))

instance (s : Publication) (op : Publish) : Decidable (s.Accepts r op) :=
  match h : op.call r s.document with
  | .ok d => .isTrue ⟨d, h⟩
  | .error _ => .isFalse fun ⟨_, hd⟩ => nomatch h.symm.trans hd

instance (s : Publication) (op : Publish) : Decidable (s.Alone op) :=
  inferInstanceAs (Decidable (op.retains = none ∨
    ∀ platform, platform ≠ op.target → s.published platform op.build = none))

end Publication

/-! ## One item -/

/-- An item is what the record says of its release, whichever platform reads it. -/
structure ItemShows (published : Platform → String → Option Artifact) (texts : ReleaseTexts)
    (item : Item) : Prop where
  shown : releaseTexts r item = .ok texts
  version : ∀ node ∈ item, node.isVersion = true → item.find? Element.isVersion = some node
  written : ∀ node ∈ item, node.name = "artifact" → ∃ p a, node = artifactElement p a
  artifact : ∀ platform, parseRelease r item platform =
    .ok ((published platform texts.build).map fun artifact => { texts with artifact })

/-- What both kinds of new item have in common: nothing in them is for another platform. -/
structure Fresh (platform : Platform) (item : Item) : Prop where
  version : ∀ node ∈ item, node.isVersion = true → item.find? Element.isVersion = some node
  written : ∀ node ∈ item, node.name = "artifact" → ∃ p a, node = artifactElement p a
  others : ∀ q, platform ≠ q → findArtifact r item q = none

variable {r}

theorem itemBuild_of_texts {item : Item} {texts : ReleaseTexts}
    (h : releaseTexts r item = .ok texts) : itemBuild r item = some texts.build := by
  rw [releaseTexts] at h
  split at h
  · cases h
  · next build hbuild =>
    split at h
    · cases h
    · rw [← Except.ok.inj h]
      exact (Option.filter_eq_some_iff.1 hbuild).1

theorem parseRelease_some {item : Item} {platform : Platform} {release : Release}
    (h : parseRelease r item platform = .ok (some release)) :
    releaseTexts r item = .ok release.toReleaseTexts := by
  rw [parseRelease] at h
  split at h
  · cases h
  · obtain ⟨texts, htexts, hrest⟩ := except_bind_ok.1 h
    obtain ⟨artifact, _, hrelease⟩ := except_bind_ok.1 hrest
    rw [← Option.some.inj (Except.ok.inj hrelease), htexts]

theorem parseRelease_of_findArtifact_none {item : Item} {platform : Platform}
    (h : findArtifact r item platform = none) : parseRelease r item platform = .ok none := by
  rw [parseRelease, h]

theorem parseRelease_congr {item item' : Item} {platform : Platform}
    (htexts : releaseTexts r item' = releaseTexts r item)
    (hfind : findArtifact r item' platform = findArtifact r item platform) :
    parseRelease r item' platform = parseRelease r item platform := by
  rw [parseRelease, parseRelease, htexts, hfind]

theorem ItemShows.hasBuild_iff {published : Platform → String → Option Artifact}
    {texts : ReleaseTexts} {item : Item} (h : ItemShows r published texts item) {build : String} :
    hasBuild r build item = true ↔ texts.build = build := by
  have hshown := itemBuild_of_texts h.shown
  constructor
  · intro hany
    obtain ⟨node, hnode, hread⟩ := List.any_eq_true.1 hany
    rw [Bool.and_eq_true] at hread
    rw [itemBuild, h.version node hnode hread.1] at hshown
    cases hvalue : node.read r with
    | none => simp [hvalue] at hread
    | some value =>
      simp only [hvalue, Option.bind_some, Option.map_some, Option.some.injEq] at hshown
      simp only [hvalue, Option.any_some, decide_eq_true_eq] at hread
      rw [← hshown, hread.2]
  · intro hbuild
    cases hnode : item.find? Element.isVersion with
    | none => simp [itemBuild, hnode] at hshown
    | some node =>
      refine List.any_eq_true.2 ⟨node, List.mem_of_find?_eq_some hnode, ?_⟩
      rw [List.find?_some hnode, Bool.true_and]
      cases hvalue : node.read r with
      | none => simp [itemBuild, hnode, hvalue] at hshown
      | some value => simpa [itemBuild, hnode, hvalue, hbuild] using hshown

/-- The record may change for other builds. -/
theorem ItemShows.mono {published published' : Platform → String → Option Artifact}
    {texts : ReleaseTexts} {item : Item} (h : ItemShows r published texts item)
    (hsame : ∀ platform, published' platform texts.build = published platform texts.build) :
    ItemShows r published' texts item :=
  { h with artifact := fun platform => by rw [h.artifact, hsame] }

/-! ## An artifact is put into an item -/

theorem find?_withArtifact {platform : Platform} {artifact : Artifact} {item : Item}
    {p : Element → Bool} (hp : ∀ node : Element, node.name = "artifact" → p node = false) :
    (withArtifact r platform artifact item).find? p = item.find? p := by
  rw [withArtifact, List.find?_append, List.find?_singleton, if_neg, Option.or_none,
    removeArtifacts, List.find?_filter]
  · congr
    funext node
    by_cases hname : node.name = "artifact"
    · simp [hp node hname]
    · simp [isArtifactOf, hname]
  · rw [hp _ rfl]
    exact Bool.false_ne_true

theorem releaseTexts_withArtifact {platform : Platform} {artifact : Artifact} {item : Item} :
    releaseTexts r (withArtifact r platform artifact item) = releaseTexts r item := by
  have hchild : ∀ name, name ≠ "artifact" →
      (withArtifact r platform artifact item).find? (·.name = name) = item.find? (·.name = name) :=
    fun name hname => find?_withArtifact fun node hnode => by simp [hnode, hname.symm]
  have hsparkle : ∀ name, name ≠ "artifact" →
      (withArtifact r platform artifact item).find?
          (fun node => node.name = name && node.tagNamespace = some sparkleNamespace)
        = item.find? fun node => node.name = name && node.tagNamespace = some sparkleNamespace :=
    fun name hname => find?_withArtifact fun node hnode => by simp [hnode, hname.symm]
  simp only [releaseTexts, childText, namespacedChildText, hsparkle "version" (by decide),
    hsparkle "shortVersionString" (by decide), hsparkle "minimumSystemVersion" (by decide),
    hchild "title" (by decide), hchild "description" (by decide)]

theorem isArtifact_artifactElement {p q : Platform} {artifact : Artifact} :
    isArtifact r q (artifactElement p artifact) = decide (p = q) := by
  simp [isArtifact, artifactElement, attributeByLocalName, Platform.feedName_inj]

theorem isArtifactOf_artifactElement {p q : Platform} {artifact : Artifact} :
    isArtifactOf r q (artifactElement p artifact) = decide (p = q) := by
  simp [isArtifactOf, artifactElement, Element.attribute, Platform.feedName_inj]

/-- The other platforms find the artifact they found before. -/
theorem findArtifact_withArtifact {p q : Platform} {artifact : Artifact} {item : Item}
    (hne : p ≠ q) (hwritten : ∀ node ∈ item, node.name = "artifact" →
      ∃ p a, node = artifactElement p a) :
    findArtifact r (withArtifact r p artifact item) q = findArtifact r item q := by
  rw [findArtifact, withArtifact, List.find?_append, List.find?_singleton,
    isArtifact_artifactElement, if_neg (by simpa using hne), Option.or_none, removeArtifacts,
    List.find?_filter, findArtifact]
  rw [← List.head?_filter, ← List.head?_filter]
  refine congrArg _ (List.filter_congr fun node hnode => ?_)
  by_cases hname : node.name = "artifact"
  · obtain ⟨p', a, rfl⟩ := hwritten node hnode hname
    rw [isArtifact_artifactElement, isArtifactOf_artifactElement]
    by_cases hq : p' = q
    · simp [hq, hne.symm]
    · simp [hq]
  · simp [isArtifactOf, hname]

/-! ## A new item -/

theorem fresh_macosItem (title version build publishedAt minimumSystemVersion notes : String)
    (artifact : Artifact) :
    Fresh r .macOs
      (macosItem title version build publishedAt minimumSystemVersion notes artifact) where
  version := by
    simp [macosItem, textElement, descriptionElement, enclosureElement, Element.isVersion]
  written := by simp [macosItem, textElement, descriptionElement, enclosureElement]
  others q hq := by
    cases q with
    | macOs => exact absurd rfl hq
    | windowsX86_64 => simp [findArtifact, macosItem, isArtifact, textElement, descriptionElement,
        enclosureElement, attributeByLocalName]
    | windowsAarch64 => simp [findArtifact, macosItem, isArtifact, textElement, descriptionElement,
        enclosureElement, attributeByLocalName]

theorem fresh_platformItem (title version build publishedAt notes : String) (platform : Platform)
    (artifact : Artifact) :
    Fresh r platform (platformItem title version build publishedAt notes platform artifact) where
  version := by
    simp [platformItem, textElement, descriptionElement, artifactElement, Element.isVersion]
  written := by
    simp only [platformItem, textElement, descriptionElement]
    intro node hnode hname
    simp only [List.mem_cons, List.not_mem_nil, or_false] at hnode
    rcases hnode with rfl | rfl | rfl | rfl | rfl | rfl
    all_goals first | exact ⟨_, _, rfl⟩ | simp at hname
  others q hq := by
    rw [findArtifact, List.find?_eq_none]
    intro node hnode
    simp only [platformItem, List.mem_cons, List.not_mem_nil, or_false] at hnode
    rcases hnode with rfl | rfl | rfl | rfl | rfl | rfl
    all_goals first
      | simpa [isArtifact_artifactElement] using hq
      | simp [isArtifact, textElement, descriptionElement]

/-! ## What was read back -/

/-- The items before and after the published one show releases of other builds, so what was read
back is in the published one. -/
theorem ReadBack.item {d : Document} {platform : Platform} {build : String} {artifact : Artifact}
    {xs ys : List Item} {item : Item} (h : ReadBack r d platform build artifact)
    (hitems : d.items = xs ++ item :: ys)
    (hother : ∀ x ∈ xs ++ ys, ∃ texts, releaseTexts r x = .ok texts ∧ texts.build ≠ build) :
    ∃ texts, texts.build = build ∧ releaseTexts r item = .ok texts ∧
      parseRelease r item platform = .ok (some { texts with artifact }) ∧
      Publication.shown r d platform build = some texts := by
  obtain ⟨releases, published, hparse, hfound, rfl⟩ := h
  have hbuild : published.build = build := by simpa using List.find?_some hfound
  have hshown : Publication.shown r d platform build = some published.toReleaseTexts := by
    simp [Publication.shown, hparse, Except.toOption, hfound]
  obtain ⟨x, hx, hrelease⟩ :=
    exists_of_mem_collectSome (appcastParse_ok hparse).2 (List.mem_of_find?_eq_some hfound)
  have htexts := parseRelease_some hrelease
  rw [hitems, List.mem_append, List.mem_cons] at hx
  have hitem : x = item := by
    by_contra hne
    have hmem : x ∈ xs ++ ys := by
      rcases hx with hx | rfl | hx
      · exact List.mem_append_left _ hx
      · exact absurd rfl hne
      · exact List.mem_append_right _ hx
    obtain ⟨texts, htexts', hother⟩ := hother x hmem
    rw [htexts] at htexts'
    exact hother (Except.ok.inj htexts' ▸ hbuild)
  exact ⟨published.toReleaseTexts, hbuild, hitem ▸ htexts, hitem ▸ hrelease, hshown⟩

theorem ReadBack.wellFormed {d : Document} {platform : Platform} {build : String}
    {artifact : Artifact} (h : ReadBack r d platform build artifact) : r.malformed d = none := by
  obtain ⟨releases, _, hparse, _⟩ := h
  exact (appcastParse_ok hparse).1

/-- What a call for a whole release has done to the items. -/
theorem Publish.call_ok_of_retains {op : Publish} {existing : Option Document} {d : Document}
    {max : Nat} (h : op.call r existing = .ok d) (hmax : op.retains = some max) :
    ∃ item, Fresh r op.target item ∧
      d.items = item :: (((existing.map (·.items)).getD []).filter
        (itemBuild r · ≠ some op.build)).take (max - 1) ∧
      ReadBack r d op.target op.build op.artifact := by
  have hitems : ∀ feedUrl, (existing.getD (emptyAppcast feedUrl)).items =
      (existing.map (·.items)).getD [] := by
    intro feedUrl
    cases existing <;> rfl
  cases op with
  | macos a minimumSystemVersion =>
    obtain rfl := Option.some.inj hmax
    obtain ⟨_, _, hpublish⟩ := except_bind_ok.1 h
    obtain ⟨hd, hback⟩ := publishItem_ok hpublish
    rw [hitems] at hd
    exact ⟨_, fresh_macosItem .., hd, hback⟩
  | platform a p =>
    obtain rfl := Option.some.inj hmax
    rw [call, publishPlatformRelease] at h
    rw [if_neg fun hmac => by rw [if_pos hmac] at h; cases h] at h
    obtain ⟨_, _, hrest⟩ := except_bind_ok.1 h
    obtain ⟨output, hnamespace, hpublish⟩ := except_bind_ok.1 hrest
    obtain ⟨hd, hback⟩ := publishItem_ok hpublish
    rw [ensureNamespace_items hnamespace, hitems] at hd
    exact ⟨_, fresh_platformItem .., hd, hback⟩
  | add => cases hmax

theorem Publish.call_ok_of_adds {op : Publish} {existing : Option Document} {d : Document}
    (h : op.call r existing = .ok d) (hadds : op.retains = none) :
    ∃ old i, existing = some old ∧ old.items.findIdx? (hasBuild r op.build) = some i ∧
      d.items = old.items.modify i (withArtifact r op.target op.artifact) ∧
      ReadBack r d op.target op.build op.artifact := by
  cases op with
  | macos => cases hadds
  | platform => cases hadds
  | add build platform artifact => exact addPlatformArtifact_ok h

theorem mem_withArtifact {platform : Platform} {artifact : Artifact} {item : Item}
    {node : Element} (h : node ∈ withArtifact r platform artifact item) :
    node ∈ item ∨ node = artifactElement platform artifact := by
  rcases List.mem_append.1 h with h | h
  · exact .inl (List.mem_of_mem_filter h)
  · exact .inr (List.mem_singleton.1 h)

/-! ## Related lists -/

section Lists

variable {α β : Type} {R S : α → β → Prop}

theorem forall₂_imp_mem {as : List α} {bs : List β} (hRS : ∀ a b, a ∈ as → R a b → S a b)
    (h : List.Forall₂ R as bs) : List.Forall₂ S as bs := by
  induction h with
  | nil => exact .nil
  | cons hab _ ih =>
    exact .cons (hRS _ _ List.mem_cons_self hab)
      (ih fun a b ha => hRS a b (List.mem_cons_of_mem _ ha))

theorem exists_of_forall₂ {as : List α} {bs : List β} (h : List.Forall₂ R as bs) {b : β}
    (hb : b ∈ bs) : ∃ a ∈ as, R a b := by
  induction h with
  | nil => exact absurd hb List.not_mem_nil
  | cons hab _ ih =>
    rcases List.mem_cons.1 hb with rfl | hb
    · exact ⟨_, List.mem_cons_self, hab⟩
    · obtain ⟨a, ha, hR⟩ := ih hb
      exact ⟨a, List.mem_cons_of_mem _ ha, hR⟩

theorem forall₂_append_right {as : List α} {xs ys : List β} (h : List.Forall₂ R as (xs ++ ys)) :
    ∃ ts us, as = ts ++ us ∧ List.Forall₂ R ts xs ∧ List.Forall₂ R us ys :=
  ⟨as.take xs.length, as.drop xs.length, (List.take_append_drop _ _).symm,
    List.forall₂_take_append _ _ _ h, List.forall₂_drop_append _ _ _ h⟩

/-- The first element with a property, in its place. -/
theorem split_of_findIdx? {p : α → Bool} {l : List α} {i : Nat} (h : l.findIdx? p = some i) :
    ∃ xs x ys, l = xs ++ x :: ys ∧ p x = true ∧ ∀ f, l.modify i f = xs ++ f x :: ys := by
  obtain ⟨hlt, hp, _⟩ := List.findIdx?_eq_some_iff_getElem.1 h
  refine ⟨l.take i, l[i], l.drop (i + 1), ?_, hp, fun f => List.modify_eq_take_cons_drop hlt⟩
  rw [List.cons_getElem_drop_succ, List.take_append_drop]

end Lists

/-! ## The invariant -/

namespace Publication

def items (s : Publication) : List Item := (s.document.map (·.items)).getD []

variable (r) in
/-- The items of the feed are the retained releases, in order. -/
structure Inv (s : Publication) : Prop where
  items : List.Forall₂ (ItemShows r s.published) s.retained s.items
  builds : (s.retained.map (·.build)).Nodup
  wellFormed : ∀ d, s.document = some d → r.malformed d = none

theorem inv_init : Inv r {} := ⟨.nil, List.nodup_nil, nofun⟩

theorem Inv.faithful {s : Publication} (h : Inv r s) : Faithful r s := by
  intro platform
  rw [offered]
  cases hdocument : s.document with
  | none =>
    have hretained : s.retained = [] := by
      have hitems := h.items
      rwa [Publication.items, hdocument, Option.map_none, Option.getD_none,
        List.forall₂_nil_right_iff] at hitems
    simp [expected, hretained]
  | some d =>
    have hitems := h.items
    rw [Publication.items, hdocument, Option.map_some, Option.getD_some] at hitems
    exact appcastParse_of_collect (h.wellFormed d hdocument)
      (collectSome_eq_filterMap (fun texts item hshows => hshows.artifact platform) hitems)

/-- The record of the artifacts after a call. -/
def publish (published : Platform → String → Option Artifact) (op : Publish) :
    Platform → String → Option Artifact :=
  Function.update published op.target
    (Function.update (published op.target) op.build (some op.artifact))

theorem publish_of_ne {published : Platform → String → Option Artifact} {op : Publish}
    {platform : Platform} {build : String} (h : platform ≠ op.target ∨ build ≠ op.build) :
    publish published op platform build = published platform build := by
  by_cases hplatform : platform = op.target
  · subst hplatform
    rw [publish, Function.update_self, Function.update_of_ne (h.resolve_left (· rfl))]
  · rw [publish, Function.update_of_ne hplatform]

theorem publish_self {published : Platform → String → Option Artifact} {op : Publish} :
    publish published op op.target op.build = some op.artifact := by
  rw [publish, Function.update_self, Function.update_self]

theorem step_of_ok {s : Publication} {op : Publish} {d : Document}
    (h : op.call r s.document = .ok d) :
    s.step r op =
      { document := some d
        retained := match op.retains with
          | none => s.retained
          | some max => (shown r d op.target op.build).toList
              ++ (s.retained.filter (·.build ≠ op.build)).take (max - 1)
        published := publish s.published op } := by
  rw [step, h]
  rfl

theorem step_of_not_accepts {s : Publication} {op : Publish} (h : ¬ Accepts r s op) :
    s.step r op = s := by
  rw [step]
  split
  · rfl
  · next d hd => exact absurd ⟨d, hd⟩ h

/-- The releases that stay when one is published whole. -/
def kept (s : Publication) (build : String) (max : Nat) : List ReleaseTexts :=
  (s.retained.filter (·.build ≠ build)).take (max - 1)

theorem build_of_mem_kept {s : Publication} {build : String} {max : Nat} {texts : ReleaseTexts}
    (h : texts ∈ s.kept build max) : texts.build ≠ build := by
  simpa using (List.mem_filter.1 (List.mem_of_mem_take h)).2

theorem Inv.kept {s : Publication} (h : Inv r s) (build : String) (max : Nat) :
    List.Forall₂ (ItemShows r s.published) (s.kept build max)
      ((s.items.filter (itemBuild r · ≠ some build)).take (max - 1)) := by
  refine List.forall₂_take _ (List.rel_filter (fun texts item hshows => ?_) h.items)
  simp [itemBuild_of_texts hshows.shown]

/-- What a call for a whole release leaves. -/
theorem Inv.whole_ok {s : Publication} {op : Publish} {d : Document} {max : Nat} (h : Inv r s)
    (hok : op.call r s.document = .ok d) (hmax : op.retains = some max) :
    ∃ item texts, Fresh r op.target item ∧ texts.build = op.build ∧
      releaseTexts r item = .ok texts ∧
      parseRelease r item op.target = .ok (some { texts with artifact := op.artifact }) ∧
      d.items = item :: (s.items.filter (itemBuild r · ≠ some op.build)).take (max - 1) ∧
      r.malformed d = none ∧
      s.step r op =
        { document := some d
          retained := texts :: s.kept op.build max
          published := publish s.published op } := by
  obtain ⟨item, hfresh, hitems, hback⟩ := Publish.call_ok_of_retains hok hmax
  obtain ⟨texts, hbuild, htexts, hrelease, hshown⟩ := hback.item
      (show d.items = [] ++ item :: _ from hitems) fun x hx => by
    obtain ⟨texts, hmem, hshows⟩ := exists_of_forall₂ (h.kept op.build max) hx
    exact ⟨texts, hshows.shown, build_of_mem_kept hmem⟩
  refine ⟨item, texts, hfresh, hbuild, htexts, hrelease, hitems, hback.wellFormed, ?_⟩
  rw [step_of_ok hok, hmax, hshown]
  rfl

/-- A call for a whole release keeps the invariant when the build is new to the other platforms. -/
theorem Inv.whole {s : Publication} {op : Publish} {d : Document} {max : Nat} (h : Inv r s)
    (hok : op.call r s.document = .ok d) (hmax : op.retains = some max)
    (halone : ∀ platform, platform ≠ op.target → s.published platform op.build = none) :
    Inv r (s.step r op) := by
  obtain ⟨item, texts, hfresh, hbuild, htexts, hrelease, hitems, hnone, hstep⟩ :=
    h.whole_ok hok hmax
  rw [hstep]
  refine ⟨?_, ?_, fun d' hd' => Option.some.inj hd' ▸ hnone⟩
  · show List.Forall₂ (ItemShows r (publish s.published op)) (texts :: _) d.items
    rw [hitems]
    refine .cons ⟨htexts, hfresh.version, hfresh.written, fun platform => ?_⟩ ?_
    · rw [hbuild]
      by_cases hplatform : platform = op.target
      · rw [hplatform, hrelease, publish_self]
        rfl
      · rw [publish_of_ne (.inl hplatform), halone platform hplatform]
        exact parseRelease_of_findArtifact_none (hfresh.others platform (Ne.symm hplatform))
    · refine forall₂_imp_mem (fun texts item hmem hshows => hshows.mono fun platform => ?_)
        (h.kept op.build max)
      exact publish_of_ne (.inr (build_of_mem_kept hmem))
  · show ((texts :: _).map (·.build)).Nodup
    rw [List.map_cons, List.nodup_cons]
    refine ⟨fun hmem => ?_, ?_⟩
    · obtain ⟨texts', hmem, hsame⟩ := List.mem_map.1 hmem
      exact build_of_mem_kept hmem (hsame.trans hbuild)
    · exact h.builds.sublist (((List.take_sublist _ _).trans List.filter_sublist).map _)

/-- Adding an artifact keeps the invariant. -/
theorem Inv.adds {s : Publication} {op : Publish} {d : Document} (h : Inv r s)
    (hok : op.call r s.document = .ok d) (hadds : op.retains = none) :
    Inv r (s.step r op) := by
  obtain ⟨old, i, hold, hi, hitems, hback⟩ := Publish.call_ok_of_adds hok hadds
  have hold : s.items = old.items := by rw [Publication.items, hold]; rfl
  obtain ⟨xs, x, ys, hxs, hx, hmodify⟩ := split_of_findIdx? hi
  rw [hmodify] at hitems
  -- the record splits where the feed does
  obtain ⟨ts, us, hretained, hts, hus⟩ := forall₂_append_right (hxs ▸ hold ▸ h.items)
  cases hus with
  | cons hshows hus =>
  rename_i t us
  have hbuild : t.build = op.build := hshows.hasBuild_iff.1 hx
  have hother : ∀ texts ∈ ts ++ us, texts.build ≠ op.build := by
    intro texts htexts hsame
    have hnodup := h.builds
    rw [hretained, List.map_append, List.map_cons, List.nodup_middle, List.nodup_cons] at hnodup
    apply hnodup.1
    rw [← List.map_append]
    exact List.mem_map.2 ⟨texts, htexts, hsame.trans hbuild.symm⟩
  obtain ⟨texts, _, htexts, hrelease, _⟩ := hback.item hitems fun y hy => by
    obtain ⟨texts, hmem, hshows⟩ := exists_of_forall₂ (List.rel_append hts hus) hy
    exact ⟨texts, hshows.shown, hother texts hmem⟩
  rw [releaseTexts_withArtifact, hshows.shown] at htexts
  obtain rfl := Except.ok.inj htexts
  rw [step_of_ok hok, hadds]
  refine ⟨?_, h.builds, fun d' hd' => Option.some.inj hd' ▸ hback.wellFormed⟩
  show List.Forall₂ (ItemShows r (publish s.published op)) s.retained d.items
  rw [hitems, hretained]
  refine List.rel_append ?_ (.cons ⟨?_, ?_, ?_, fun platform => ?_⟩ ?_)
  · exact forall₂_imp_mem (fun texts item hmem hshows => hshows.mono fun platform =>
      publish_of_ne (.inr (hother texts (List.mem_append_left _ hmem)))) hts
  · rw [releaseTexts_withArtifact, hshows.shown]
  · intro node hnode hversion
    rw [find?_withArtifact fun node hname => by simp [Element.isVersion, hname]]
    rcases mem_withArtifact hnode with hnode | rfl
    · exact hshows.version node hnode hversion
    · exact absurd hversion (by simp [Element.isVersion, artifactElement])
  · intro node hnode hname
    rcases mem_withArtifact hnode with hnode | rfl
    · exact hshows.written node hnode hname
    · exact ⟨_, _, rfl⟩
  · by_cases hplatform : platform = op.target
    · rw [hplatform, hbuild, publish_self, hrelease]
      rfl
    · rw [publish_of_ne (.inl hplatform), ← hshows.artifact]
      exact parseRelease_congr releaseTexts_withArtifact
        (findArtifact_withArtifact (Ne.symm hplatform) hshows.written)
  · exact forall₂_imp_mem (fun texts item hmem hshows => hshows.mono fun platform =>
      publish_of_ne (.inr (hother texts (List.mem_append_right _ hmem)))) hus

/-- **The step.** Every accepted call of the kind that withdraws nothing keeps the invariant. -/
theorem Inv.step {s : Publication} {op : Publish} (h : Inv r s) (hok : Accepts r s op)
    (halone : Alone s op) : Inv r (s.step r op) := by
  obtain ⟨d, hd⟩ := hok
  cases hmax : op.retains with
  | none => exact h.adds hd hmax
  | some max => exact h.whole hd hmax (halone.resolve_left (by simp [hmax]))

/-- A whole release for a build that another platform has an artifact of withdraws that artifact. -/
theorem Inv.withdraws {s : Publication} {op : Publish} (h : Inv r s) (hok : Accepts r s op)
    (halone : ¬ Alone s op) : ¬ Faithful r (s.step r op) := by
  intro hfaithful
  obtain ⟨d, hd⟩ := hok
  rw [Alone, not_or] at halone
  obtain ⟨hretains, hothers⟩ := halone
  obtain ⟨max, hmax⟩ := Option.ne_none_iff_exists'.1 hretains
  push Not at hothers
  obtain ⟨platform, hplatform, hpublished⟩ := hothers
  obtain ⟨artifact, hartifact⟩ := Option.ne_none_iff_exists'.1 hpublished
  obtain ⟨item, texts, hfresh, hbuild, htexts, hrelease, hitems, hnone, hstep⟩ :=
    h.whole_ok hd hmax
  -- the artifact is recorded, so its platform should be offered the build
  have hmem : { texts with artifact } ∈ (s.step r op).expected platform := by
    rw [hstep]
    refine List.mem_filterMap.2 ⟨texts, List.mem_cons_self, ?_⟩
    show (publish s.published op platform texts.build).map _ = _
    rw [publish_of_ne (.inl hplatform), hbuild, hartifact]
    rfl
  have hparse := hfaithful platform
  rw [if_neg (List.ne_nil_of_mem hmem)] at hparse
  rw [hstep] at hparse hmem
  obtain ⟨x, hx, hfound⟩ := exists_of_mem_collectSome (appcastParse_ok hparse).2 hmem
  rw [hitems, List.mem_cons] at hx
  rcases hx with rfl | hx
  · have hnothing := parseRelease_of_findArtifact_none
      (hfresh.others platform (Ne.symm hplatform))
    rw [hnothing] at hfound
    cases hfound
  · obtain ⟨texts', hmem', hshows⟩ := exists_of_forall₂ (h.kept op.build max) hx
    have hsame := parseRelease_some hfound
    rw [hshows.shown] at hsame
    exact build_of_mem_kept hmem' (Except.ok.inj hsame ▸ hbuild)

/-- **Publishing one platform withdraws another** exactly when a whole release is published for a
build that already has an artifact for another platform. -/
theorem faithful_iff (r : FeedReader) (ops : List Publish)
    (hok : StepsMeet (step r) (Accepts r) {} ops) :
    StatesMeet (step r) (Faithful r) {} ops ↔ StepsMeet (step r) Alone {} ops := by
  rw [statesMeet_iff_stepsMeet (I := Inv r) (C := fun s op => Accepts r s op → Alone s op)
    (fun s h => h.faithful) ?_ ?_ inv_init]
  · exact ⟨fun h => StepsMeet.imp₂ (fun s op hC hok => hC hok) h hok,
      fun h => StepsMeet.imp₂ (E := fun s op => Accepts r s op → Alone s op)
        (fun s op halone _ _ => halone) h hok⟩
  · intro s op h hC
    by_cases hok : Accepts r s op
    · exact h.step hok (hC hok)
    · rwa [step_of_not_accepts hok]
  · intro s op h hC
    rw [Classical.not_imp] at hC
    exact h.withdraws hC.1 hC.2

/-- A reader that takes every string as it stands. -/
def plainReader : FeedReader where
  malformed _ := none
  text value := if value = "" then none else some value
  cdata value := if value = "" then none else some value
  attributeValue value := value
  parseUrl url := .ok url
  attributeValue_plain _ _ := rfl

def exampleArtifact (url : String) : Artifact :=
  { url, contentLength := 84, ed25519Signature := "c2ln", sha256 := none }

def exampleRelease (build : String) : Announcement :=
  { feedUrl := "https://example.test/appcast.xml", title := "0.1." ++ build
    version := "0.1." ++ build, build, publishedAt := "Fri, 14 Aug 2026 12:00:00 -0400"
    notes := "# Notes", artifact := exampleArtifact ("https://example.test/" ++ build ++ ".zip")
    maximumReleases := 3 }

/-- Releases of two builds, and an artifact added to the first. -/
theorem faithful_two_builds :
    StatesMeet (step plainReader) (Faithful plainReader) {}
      [.macos (exampleRelease "27") "14.0", .platform (exampleRelease "28") .windowsX86_64,
        .add "27" .windowsX86_64 (exampleArtifact "https://example.test/27-x64.zip")] :=
  (faithful_iff plainReader _ (by decide +kernel)).2 (by decide +kernel)

/-- Build 27 is published for macOS, then for Windows: macOS is offered nothing any more. -/
theorem macos_withdrawn :
    ¬ ∀ (r : FeedReader) (ops : List Publish), StepsMeet (step r) (Accepts r) {} ops →
      StatesMeet (step r) (Faithful r) {} ops := by
  intro h
  have hfaithful := (h plainReader
    [.macos (exampleRelease "27") "14.0", .platform (exampleRelease "27") .windowsX86_64]
    (by decide +kernel)).last
  revert hfaithful
  decide +kernel

end Publication

end Superiority.Updater
