import Superiority.Library.Lexical
import Superiority.Updater.Rollback
import Superiority.Updater.VersionOrder
import Superiority.Updater.Feed

/-!
# Where a release leads the updater

The names of a release's archive and of its staging directory are made of strings of the feed, which
nobody signed. They are joined to the cache directory as `std::path` joins them: an absolute name
replaces what it is joined to, and a parent leads up.

* **`contained_iff`** – for which releases every path stays inside the cache directory, and for
  which plans an install stays inside a directory of its own.
-/

namespace Superiority.Updater

/-! ## Paths -/

def Platform.separates : Platform → Char → Bool
  | .macOs, c => c = '/'
  | _, c => c = '/' || c = '\\'

/-- `std::path::Prefix`. What only the system understands (verbatim and device paths) is kept as
its text. -/
inductive Volume where
  | disk (letter : Char)
  | share (server share : List Char)
  | system (text : List Char)
  deriving DecidableEq

structure LexicalPath where
  volume : Option Volume
  rooted : Bool
  parts : List (Part String)
  deriving DecidableEq

/-- A prefix that begins with two separators, from what follows these. -/
def parseNetwork (backslashes : Bool) (text : List Char) : Option (Volume × List Char) :=
  let ends := Platform.windowsX86_64.separates
  let next (text : List Char) := (text.takeWhile (! ends ·), text.dropWhile (! ends ·))
  let server := next text
  let share := next server.2.tail
  if server.1 = ['.'] ∨ (backslashes ∧ ['?', '\\'] <+: text) then
    some (.system (server.1 ++ share.1), share.2)
  else if server.1 ≠ [] ∧ share.1 ≠ [] then some (.share server.1 share.1, share.2)
  else none

/-- `parse_prefix`, with what follows the prefix. -/
def Platform.parsePrefix : Platform → List Char → Option (Volume × List Char)
  | .macOs, _ => none
  | p, a :: b :: rest =>
    if p.separates a && p.separates b then parseNetwork (a = '\\' && b = '\\') rest
    else if a.isAlpha && b = ':' then some (.disk a.toUpper, rest)
    else none
  | _, _ => none

def part (text : List Char) : Option (Part String) :=
  if text = [] ∨ text = ['.'] then none
  else if text = ['.', '.'] then some .parent
  else some (.name (String.ofList text))

def Platform.parts (p : Platform) (text : List Char) : List (Part String) :=
  (text.splitOnP p.separates).filterMap part

def Platform.path (p : Platform) (text : List Char) : LexicalPath :=
  match p.parsePrefix text with
  | none => { volume := none, rooted := text.head?.any p.separates, parts := p.parts text }
  | some (.disk letter, rest) =>
    { volume := some (.disk letter), rooted := rest.head?.any p.separates, parts := p.parts rest }
  | some (volume, rest) => { volume := some volume, rooted := true, parts := p.parts rest }

namespace LexicalPath

/-- `Path::join`. -/
def join (base path : LexicalPath) : LexicalPath :=
  if path.volume.isSome then path
  else if path.rooted then { path with volume := base.volume }
  else { base with parts := base.parts ++ path.parts }

/-- `Path::file_stem` of a name: all before its last dot, if there is anything. -/
def fileStem (name : List Char) : List Char :=
  match name.reverse.dropWhile (· ≠ '.') with
  | _ :: c :: before => (c :: before).reverse
  | _ => name

/-- `Path::with_extension`. -/
def withExtension (path : LexicalPath) (extension : String) : LexicalPath :=
  match path.parts.getLast? with
  | some (.name text) =>
    { path with parts := path.parts.dropLast ++
        [.name (String.ofList (fileStem text.toList) ++ "." ++ extension)] }
  | _ => path

/-- `Path::starts_with`, component by component. -/
def startsWith (path base : LexicalPath) : Bool :=
  path.volume = base.volume && path.rooted = base.rooted && base.parts.isPrefixOf path.parts

end LexicalPath

/-! ## The engine's paths -/

/-- The cache directory, by an absolute path as the platform gives it. -/
structure CacheDirectory where
  platform : Platform
  path : LexicalPath
  absolute : path.rooted = true
  ordinary : ∀ volume ∈ path.volume, platform ≠ .macOs ∧ ∀ text, volume ≠ .system text

def safeName (value : String) : List Char :=
  value.toList.map fun c => if c.isAlphanum || c = '.' || c = '-' || c = '_' then c else '_'

/-- Twelve random bytes in hexadecimal digits. -/
def randomToken (random : Vector UInt8 12) : List Char :=
  random.toList.flatMap fun b => [Nat.digitChar (b.toNat / 16), Nat.digitChar (b.toNat % 16)]

def archiveName (release : Release) : List Char :=
  safeName release.version ++ "-".toList ++ release.build.toList ++ ".zip".toList

def stagingName (release : Release) (random : Vector UInt8 12) : List Char :=
  release.build.toList ++ "-".toList ++ randomToken random

namespace CacheDirectory

variable (cache : CacheDirectory)

def downloads : LexicalPath := cache.path.join (cache.platform.path "Downloads".toList)

def stagingRoot : LexicalPath := cache.path.join (cache.platform.path "Staging".toList)

def archivePath (release : Release) : LexicalPath :=
  cache.downloads.join (cache.platform.path (archiveName release))

/-- What `download_artifact` writes until the archive is whole. -/
def downloadPath (release : Release) : LexicalPath :=
  (cache.archivePath release).withExtension "download"

def stagingDirectory (release : Release) (random : Vector UInt8 12) : LexicalPath :=
  cache.stagingRoot.join (cache.platform.path (stagingName release random))

/-- The directory it removes, if any. -/
def removeDirectoryIfOwned (directory : LexicalPath) : Option LexicalPath :=
  if directory.startsWith cache.path && directory ≠ cache.path then some directory else none

/-! ## What is asked of them -/

/-- Where the cache directory is, from its root. -/
def place : Path := Part.follow [] cache.path.parts

/-- The path leads strictly inside the cache directory. -/
def Contains (path : LexicalPath) : Prop :=
  path.volume = cache.path.volume ∧ path.rooted = true ∧
    Inside cache.place (Part.follow [] path.parts)

structure ContainsAll (release : Release) (random : Vector UInt8 12) : Prop where
  archive : cache.Contains (cache.archivePath release)
  download : cache.Contains (cache.downloadPath release)
  staging : cache.Contains (cache.stagingDirectory release random)
  removed : ∀ path ∈ cache.removeDirectoryIfOwned (cache.stagingDirectory release random),
    cache.Contains path

/-- The directories in a name lead up by one level at most, or back by the names of the cache
directory that they left. An absolute name is itself inside. -/
def Spares (name : LexicalPath) : Prop :=
  if name.volume = none ∧ name.rooted = false then
    cache.place.rtake ((Part.reduce name.parts.dropLast).ups - 1) <+:
      (Part.reduce name.parts.dropLast).names
  else (name.volume = none ∨ name.volume = cache.path.volume) ∧ name.rooted = true ∧
    Inside cache.place (Part.follow [] name.parts)

instance (path : LexicalPath) : Decidable (cache.Contains path) :=
  inferInstanceAs (Decidable (_ ∧ _ ∧ Inside _ _))

instance (name : LexicalPath) : Decidable (cache.Spares name) :=
  inferInstanceAs (Decidable (ite _ _ (_ ∧ _ ∧ Inside _ _)))

end CacheDirectory

/-! ## The names of a release -/

theorem separates_of_safe {p : Platform} {c : Char}
    (h : c.isAlphanum || c = '.' || c = '-' || c = '_') : p.separates c = false := by
  have hne : c ≠ '/' ∧ c ≠ '\\' := by
    constructor
    · rintro rfl
      exact absurd h (by decide)
    · rintro rfl
      exact absurd h (by decide)
  cases p <;> simp [Platform.separates, hne.1, hne.2]

theorem safe_of_mem_safeName {value : String} {c : Char} (h : c ∈ safeName value) :
    c.isAlphanum || c = '.' || c = '-' || c = '_' := by
  obtain ⟨c', -, rfl⟩ := List.mem_map.1 h
  split
  · assumption
  · decide

theorem safe_of_mem_randomToken {random : Vector UInt8 12} {c : Char}
    (h : c ∈ randomToken random) : c.isAlphanum || c = '.' || c = '-' || c = '_' := by
  have hdigit : ∀ n < 16, (Nat.digitChar n).isAlphanum = true := by decide
  obtain ⟨b, -, hc⟩ := List.mem_flatMap.1 h
  have hb := b.toNat_lt
  rcases List.mem_pair.1 hc with rfl | rfl
  · rw [hdigit _ (by omega)]
    rfl
  · rw [hdigit _ (by omega)]
    rfl

theorem safe_of_mem_zip {c : Char} (h : c ∈ ".zip".toList) :
    c.isAlphanum || c = '.' || c = '-' || c = '_' := by
  have hall : (".zip".toList.all fun c => c.isAlphanum || c = '.' || c = '-' || c = '_') = true := by
    decide
  exact List.all_eq_true.1 hall c h

/-- What is appended to a text is appended to its last component. -/
theorem splitOnP_append {separates : Char → Bool} {front back : List Char}
    (h : ∀ c ∈ back, separates c = false) :
    ∃ init last, (front ++ back).splitOnP separates = init ++ [last ++ back] := by
  induction front with
  | nil => exact ⟨[], [], List.splitOnP_eq_singleton h⟩
  | cons c front ih =>
    obtain ⟨init, last, hsplit⟩ := ih
    rw [List.cons_append, List.splitOnP_cons_eq_if_modifyHead, hsplit]
    by_cases hc : separates c = true
    · exact ⟨[] :: init, last, by simp [hc]⟩
    · cases init with
      | nil => exact ⟨[], c :: last, by simp [hc]⟩
      | cons first init => exact ⟨(c :: first) :: init, last, by simp [hc]⟩

theorem part_append {last back : List Char} (h : ∃ c ∈ back, c ≠ '.') :
    part (last ++ back) = some (.name (String.ofList (last ++ back))) := by
  obtain ⟨c, hc, hdot⟩ := h
  have hmem : c ∈ last ++ back := List.mem_append_right _ hc
  have hne : ∀ text : List Char, (∀ d ∈ text, d = '.') → last ++ back ≠ text := by
    intro text htext heq
    exact hdot (htext c (heq ▸ hmem))
  rw [part, if_neg (not_or.2 ⟨hne [] (by simp), hne ['.'] (by simp)⟩),
    if_neg (hne ['.', '.'] (by simp))]

/-- A text with such an end names something in a directory. -/
theorem parts_append {p : Platform} {front back : List Char}
    (hback : ∀ c ∈ back, p.separates c = false) (hdot : ∃ c ∈ back, c ≠ '.') :
    ∃ init text, p.parts (front ++ back) = init ++ [.name text] := by
  obtain ⟨init, last, hsplit⟩ : ∃ init last, (front ++ back).splitOnP p.separates =
      init ++ [last ++ back] := splitOnP_append hback
  refine ⟨init.filterMap part, String.ofList (last ++ back), ?_⟩
  rw [Platform.parts, hsplit, List.filterMap_append, List.filterMap_cons, part_append hdot]
  rfl

namespace LexicalPath

/-- A name below where it is joined: it replaces nothing. -/
structure Relative (path : LexicalPath) : Prop where
  volume : path.volume = none
  rooted : path.rooted = false

end LexicalPath

theorem path_of_volume_none {p : Platform} {text : List Char} (h : (p.path text).volume = none) :
    (p.path text).parts = p.parts text := by
  rw [Platform.path] at h ⊢
  split at h
  · rfl
  · cases h
  · cases h

/-- The last component of the name of an archive or of a staging directory is a name. -/
theorem archiveName_parts {p : Platform} (release : Release)
    (h : (p.path (archiveName release)).volume = none) :
    ∃ init text, (p.path (archiveName release)).parts = init ++ [.name text] := by
  rw [path_of_volume_none h]
  exact parts_append (fun c hc => separates_of_safe (safe_of_mem_zip hc))
    ⟨'z', by decide, by decide⟩

theorem stagingName_parts {p : Platform} (release : Release) (random : Vector UInt8 12)
    (h : (p.path (stagingName release random)).volume = none) :
    ∃ init text, (p.path (stagingName release random)).parts = init ++ [.name text] := by
  rw [path_of_volume_none h, stagingName, List.append_assoc]
  refine parts_append (fun c hc => ?_) ⟨'-', by simp, by decide⟩
  rcases List.mem_append.1 hc with hc | hc
  · obtain rfl := List.mem_singleton.1 hc
    exact separates_of_safe (by decide)
  · exact separates_of_safe (safe_of_mem_randomToken hc)

theorem relative_of_cons {p : Platform} {c : Char} {text : List Char}
    (hc : c.isAlphanum || c = '.' || c = '-' || c = '_')
    (h : c = '-' ∨ text.head? ≠ some ':') : (p.path (c :: text)).Relative := by
  have hsep : p.separates c = false := separates_of_safe hc
  have hnone : p.parsePrefix (c :: text) = none := by
    have hletter : ∀ d rest, text = d :: rest → (c.isAlpha && d = ':') = false := by
      rintro d rest rfl
      rcases h with rfl | h
      · rfl
      · simpa using fun _ heq => h (congrArg some heq)
    cases p with
    | macOs => rfl
    | windowsX86_64 | windowsAarch64 =>
      cases text with
      | nil => rfl
      | cons d rest => simp [Platform.parsePrefix, hsep, hletter d rest rfl]
  rw [Platform.path, hnone]
  exact ⟨rfl, by simpa using hsep⟩

/-- The name of an archive begins with the sanitized version, so it replaces nothing. -/
theorem archiveName_relative {p : Platform} (release : Release) :
    (p.path (archiveName release)).Relative := by
  have hsafe : ∀ c ∈ safeName release.version, c.isAlphanum || c = '.' || c = '-' || c = '_' :=
    fun c => safe_of_mem_safeName
  rw [archiveName]
  generalize safeName release.version = version at hsafe
  cases version with
  | nil => exact relative_of_cons (by decide) (.inl rfl)
  | cons c version =>
    refine relative_of_cons (hsafe c List.mem_cons_self) (.inr ?_)
    cases version with
    | nil => simp
    | cons d version =>
      intro heq
      obtain rfl : d = ':' := Option.some.inj heq
      exact absurd (hsafe ':' (by simp)) (by decide)

/-! ## Where the joined paths lead -/

namespace CacheDirectory

variable {cache : CacheDirectory}

theorem downloads_eq : cache.downloads =
    { cache.path with parts := cache.path.parts ++ [.name "Downloads"] } := by
  have hname : cache.platform.path "Downloads".toList =
      { volume := none, rooted := false, parts := [.name "Downloads"] } := by
    cases cache.platform <;> decide +kernel
  rw [downloads, hname]
  rfl

theorem stagingRoot_eq : cache.stagingRoot =
    { cache.path with parts := cache.path.parts ++ [.name "Staging"] } := by
  have hname : cache.platform.path "Staging".toList =
      { volume := none, rooted := false, parts := [.name "Staging"] } := by
    cases cache.platform <;> decide +kernel
  rw [stagingRoot, hname]
  rfl

theorem follow_append (sub : String) (parts : List (Part String)) :
    Part.follow [] (cache.path.parts ++ [.name sub] ++ parts) =
      Part.follow (cache.place ++ [sub]) parts := by
  rw [place, Part.follow, List.foldl_append, List.foldl_append]
  rfl

/-- A name is joined to a directory of the cache. -/
theorem contains_join {sub : String} {name : LexicalPath}
    (hname : name.volume = none → ∃ init text, name.parts = init ++ [.name text]) :
    cache.Contains (LexicalPath.join
      { cache.path with parts := cache.path.parts ++ [.name sub] } name) ↔ cache.Spares name := by
  rw [Spares]
  split
  · next hrelative =>
    obtain ⟨init, text, hparts⟩ := hname hrelative.1
    rw [LexicalPath.join, hrelative.1, if_neg (by simp), if_neg (by simp [hrelative.2]), Contains]
    simp only [true_and, cache.absolute, follow_append, hparts, List.dropLast_concat]
    exact Inside.follow_iff
  · next hrelative =>
    cases hvolume : name.volume with
    | some volume => simp [LexicalPath.join, hvolume, Contains]
    | none =>
      have hrooted : name.rooted = true := by simpa [hvolume] using hrelative
      simp [LexicalPath.join, hvolume, hrooted, Contains]

/-- Another extension leads to the same directory. -/
theorem contains_withExtension {sub : String} {name : LexicalPath} (hrelative : name.Relative)
    (hname : ∃ init text, name.parts = init ++ [.name text]) (extension : String) :
    cache.Contains (LexicalPath.withExtension (LexicalPath.join
      { cache.path with parts := cache.path.parts ++ [.name sub] } name) extension) ↔
      cache.Spares name := by
  obtain ⟨init, text, hparts⟩ := hname
  obtain ⟨other, hother⟩ : ∃ other, LexicalPath.withExtension (LexicalPath.join
      { cache.path with parts := cache.path.parts ++ [.name sub] } name) extension =
      LexicalPath.join { cache.path with parts := cache.path.parts ++ [.name sub] }
        { name with parts := init ++ [.name other] } := by
    refine ⟨String.ofList (LexicalPath.fileStem text.toList) ++ "." ++ extension, ?_⟩
    rw [LexicalPath.join, hrelative.volume, if_neg (by simp), if_neg (by simp [hrelative.rooted]),
      LexicalPath.withExtension, hparts, ← List.append_assoc, List.getLast?_concat,
      LexicalPath.join, if_neg (by simp), if_neg (by simp [hrelative.rooted])]
    simp only [List.dropLast_concat, ← List.append_assoc]
  rw [hother, contains_join fun _ => ⟨init, other, rfl⟩]
  simp only [Spares, hrelative.volume, hrelative.rooted, hparts, List.dropLast_concat, true_and,
    if_true]

/-- The paths of a release stay inside the cache directory exactly if its two names do not lead
away. -/
theorem containsAll_iff (release : Release) (random : Vector UInt8 12) :
    cache.ContainsAll release random ↔
      cache.Spares (cache.platform.path (archiveName release)) ∧
        cache.Spares (cache.platform.path (stagingName release random)) := by
  have hrelative := archiveName_relative (p := cache.platform) release
  have harchive := archiveName_parts release hrelative.volume
  have hstaging : cache.Contains (cache.stagingDirectory release random) ↔
      cache.Spares (cache.platform.path (stagingName release random)) := by
    rw [stagingDirectory, stagingRoot_eq]
    exact contains_join fun h => stagingName_parts release random h
  constructor
  · intro h
    have hin := h.archive
    rw [archivePath, downloads_eq] at hin
    exact ⟨(contains_join fun _ => harchive).1 hin, hstaging.1 h.staging⟩
  · rintro ⟨ha, hs⟩
    refine ⟨?_, ?_, hstaging.2 hs, fun path hpath => ?_⟩
    · rw [archivePath, downloads_eq]
      exact (contains_join fun _ => harchive).2 ha
    · rw [downloadPath, archivePath, downloads_eq]
      exact (contains_withExtension hrelative harchive _).2 ha
    · rw [removeDirectoryIfOwned] at hpath
      split at hpath
      · obtain rfl := Option.some.inj hpath
        exact hstaging.2 hs
      · cases hpath

/-- A text without separators is a name in the directory that it is joined to. -/
theorem spares_of_safe {text : List Char}
    (hsafe : ∀ c ∈ text, c.isAlphanum || c = '.' || c = '-' || c = '_')
    (hdot : ∃ c ∈ text, c ≠ '.') : cache.Spares (cache.platform.path text) := by
  have hrelative : (cache.platform.path text).Relative := by
    cases text with
    | nil => simp at hdot
    | cons c text =>
      refine relative_of_cons (hsafe c List.mem_cons_self) (.inr fun hcolon => ?_)
      have hmem : ':' ∈ text := List.mem_of_mem_head? hcolon
      exact absurd (hsafe ':' (List.mem_cons_of_mem _ hmem)) (by decide)
  have hparts : (cache.platform.path text).parts = [.name (String.ofList text)] := by
    rw [path_of_volume_none hrelative.volume, Platform.parts,
      List.splitOnP_eq_singleton fun c hc => separates_of_safe (hsafe c hc)]
    have hpart : part ([] ++ text) = some (.name (String.ofList ([] ++ text))) := part_append hdot
    rw [List.nil_append] at hpart
    rw [List.filterMap_cons, hpart]
    rfl
  rw [Spares, if_pos ⟨hrelative.volume, hrelative.rooted⟩, hparts]
  simp [Part.reduce]

/-- A build like those that an install accepts would lead nowhere else. -/
theorem containsAll_of_safe {release : Release} (h : safeVersionComponent release.build = true)
    (random : Vector UInt8 12) : cache.ContainsAll release random := by
  have hbuild : ∀ c ∈ release.build.toList, c.isAlphanum || c = '.' || c = '-' || c = '_' := by
    intro c hc
    rw [safeVersionComponent, Bool.and_eq_true, List.all_eq_true] at h
    simpa [or_assoc] using h.2 c hc
  rw [containsAll_iff]
  constructor
  · refine spares_of_safe (fun c hc => ?_) ⟨'-', by simp [archiveName], by decide⟩
    simp only [archiveName, List.mem_append] at hc
    rcases hc with ((hc | hc) | hc) | hc
    · exact safe_of_mem_safeName hc
    · obtain rfl := List.mem_singleton.1 hc
      decide
    · exact hbuild c hc
    · exact safe_of_mem_zip hc
  · refine spares_of_safe (fun c hc => ?_) ⟨'-', by simp [stagingName], by decide⟩
    simp only [stagingName, List.mem_append] at hc
    rcases hc with (hc | hc) | hc
    · exact hbuild c hc
    · obtain rfl := List.mem_singleton.1 hc
      decide
    · exact safe_of_mem_randomToken hc

end CacheDirectory

/-! ## The paths of an install -/

/-- In a directory of one version, or one of the stable files. The new manifest is written beside
the old one. -/
def Own (path : Path) : Prop :=
  (∃ build rest, path = "versions" :: build :: rest) ∨
    path ∈ [[launcherName], [agentName], [currentManifest], temporaryManifest]

/-- Nothing else was removed or created, but for the directory of the versions if there was none. -/
structure Untouched (first d : FileTree Content) : Prop where
  rest : ∀ path, ¬ Own path → path ≠ ["versions"] → d.lookup path = first.lookup path
  versions : d.lookup ["versions"] = first.lookup ["versions"] ∨
    first.lookup ["versions"] = none ∧ d.lookup ["versions"] = some .directory

/-- Every install of the plan, whatever becomes of its calls, touches nothing else. -/
def InstallPlan.Contained (plan : InstallPlan) : Prop :=
  ∀ (trust : Content → UInt32) (i : Installation) (fates : List Fate),
    ∀ d ∈ ((executeInstall trust plan).run i.disk fates).2.seen, Untouched i.disk.target d.target

open Program

section Contained

variable (first : FileTree Content)

/-- Every call of the program keeps to the paths of the install. -/
def Keeps {α : Type} (m : Install α) : Prop :=
  Spec (fun d => Untouched first d.target) (fun d => Untouched first d.target) m
    (fun _ d => Untouched first d.target) (fun d => Untouched first d.target)

variable {first} {α β : Type}

theorem not_own_versions : ¬ Own ["versions"] := by
  rintro (⟨build, rest, h⟩ | h)
  · simp at h
  · exact absurd h (by decide)

theorem own_of_under {build : String} {path : Path} (h : ["versions", build] <+: path) :
    Own path := by
  obtain ⟨rest, rfl⟩ := h
  exact .inl ⟨build, rest, rfl⟩

theorem Untouched.change {d d' : FileTree Content} (h : Untouched first d)
    (hsame : ∀ path, ¬ Own path → d'.lookup path = d.lookup path) : Untouched first d' := by
  constructor
  · intro path hpath hne
    rw [hsame path hpath, h.rest path hpath hne]
  · rw [hsame _ not_own_versions]
    exact h.versions

theorem Untouched.erase {d : FileTree Content} {path : Path} (h : Untouched first d)
    (hown : Own path) : Untouched first (d.erase path) :=
  h.change fun _ hq => FileTree.lookup_erase_of_ne fun heq => hq (heq ▸ hown)

theorem Untouched.insert {d : FileTree Content} {path : Path} {e : Entry Content}
    (h : Untouched first d) (hown : Own path) : Untouched first (d.insert path e) :=
  h.change fun _ hq => FileTree.lookup_insert_of_ne fun heq => hq (heq ▸ hown)

theorem Untouched.graft {d g : FileTree Content} {build : String} (h : Untouched first d) :
    Untouched first (d.graft ["versions", build] g) :=
  h.change fun _ hq => FileTree.lookup_graft_of_not_under fun hunder => hq (own_of_under hunder)

/-- The directory of the versions is made when it is not there. -/
theorem Untouched.insertVersions {d : FileTree Content} (h : Untouched first d)
    (hnone : d.lookup ["versions"] = none) :
    Untouched first (d.insert ["versions"] .directory) := by
  constructor
  · intro path hpath hne
    rw [FileTree.lookup_insert_of_ne hne, h.rest path hpath hne]
  · refine .inr ⟨?_, FileTree.lookup_insert_self ..⟩
    rcases h.versions with hsame | ⟨hnone', -⟩
    · rw [← hsame, hnone]
    · exact hnone'

/-! ## What every call keeps to -/

theorem Keeps.bind {m : Install α} {f : α → Install β} (hm : Keeps first m)
    (hf : ∀ a, Keeps first (f a)) : Keeps first (m >>= f) :=
  Spec.bind hm hf

theorem Keeps.pure (a : α) : Keeps first (Pure.pure a : Install α) := Spec.pure fun _ h => h

theorem Keeps.fail (e : Error) : Keeps first (Program.fail e : Install α) := Spec.fail fun _ h => h

theorem Keeps.read (e : Error) (get : Disk → Option α) : Keeps first (Program.read e get) :=
  Spec.read (fun _ h => h) (fun _ _ h _ => h) fun _ h => h

theorem Keeps.attempt {m : Install α} (h : Keeps first m) : Keeps first (Program.attempt m) :=
  Spec.attempt h (fun _ _ h => h) fun _ _ h => h

theorem Keeps.probe (e : Error) (test : Disk → Bool) : Keeps first (Program.probe e test) :=
  (Spec.probe fun _ h => h).weaken (fun _ h => h) (fun _ _ h => h.1) fun _ h => h

theorem Keeps.each {f : β → Install Unit} {bs : List β} (h : ∀ b ∈ bs, Keeps first (f b)) :
    Keeps first (Program.each f bs) :=
  Spec.each h

theorem Keeps.change {e : Error} {act : Disk → Option Disk}
    (h : ∀ d d', Untouched first d.target → act d = some d' → Untouched first d'.target) :
    Keeps first (Program.change e act) :=
  Spec.change (fun d d' hd hact => ⟨h d d' hd hact, h d d' hd hact⟩) fun _ h => h

theorem keeps_removeDirAll {dir : Path} (h : ∀ path, dir <+: path → Own path) :
    Keeps first (removeDirAll .target dir) :=
  removeDirAll_spec (fun _ h => h) fun _ path hpath hd => hd.erase (h path hpath)

theorem keeps_removeSource : Keeps first (removeDirAll .source []) := by
  refine Keeps.bind (Keeps.read _ _) fun order => Keeps.each fun path _ => Keeps.change ?_
  intro d d' hd hact
  obtain rfl := Option.some.inj hact
  exact hd

theorem keeps_createFile {path : Path} (h : Own path) : Keeps first (createFile path) := by
  refine Keeps.change fun d d' hd hact => ?_
  split at hact
  · cases hact
  · obtain rfl := Option.some.inj hact
    exact hd.insert h

theorem keeps_writeFile {path : Path} {content : Content} (h : Own path) :
    Keeps first (writeFile path content) := by
  refine Keeps.change fun d d' hd hact => ?_
  obtain rfl := Option.some.inj hact
  exact hd.insert h

theorem keeps_moveFile {error : Error} {source destination : Path} (hs : Own source)
    (hd : Own destination) : Keeps first (moveFile error source destination) := by
  refine Keeps.change fun d d' h hact => ?_
  split at hact
  · cases hact
  · split at hact
    · cases hact
    · obtain rfl := Option.some.inj hact
      exact (h.erase hs).insert hd

/-- All directories on the way to a path are made if they are the installation's own. -/
theorem keeps_createDirAll {path : Path}
    (h : ∀ p ∈ path.inits, p ≠ [] → p = ["versions"] ∨ Own p) :
    Keeps first (createDirAll path) := by
  refine Keeps.each fun p hp => Keeps.change fun d d' hd hact => ?_
  rw [List.mem_filter, decide_eq_true_eq] at hp
  split at hact
  · obtain rfl := Option.some.inj hact
    exact hd
  · next hnone =>
    obtain rfl := Option.some.inj hact
    rcases h p hp.1 hp.2 with rfl | hown
    · exact hd.insertVersions hnone
    · exact hd.insert hown
  · cases hact

theorem keeps_validateInstallSource (trust : Content → UInt32) :
    Keeps first (validateInstallSource trust) :=
  (validateInstallSource_spec trust (fun _ h => h) fun _ h => h).weaken (fun _ h => h)
    (fun _ _ h => h.1) fun _ h => h

theorem keeps_validateInstallTarget (trust : Content → UInt32) :
    Keeps first (validateInstallTarget trust) :=
  (validateInstallTarget_spec trust (fun _ h => h) fun _ h => h).weaken (fun _ h => h)
    (fun _ _ h => h.1) fun _ h => h

section Stages

variable {build : String}

theorem keeps_clearDestination : Keeps first (clearDestination ["versions", build]) := by
  refine Keeps.bind (Keeps.probe _ _) fun answer => ?_
  split
  · refine Keeps.bind (Keeps.read _ _) fun metadata => ?_
    split
    · exact keeps_removeDirAll fun _ => own_of_under
    · exact Keeps.fail _
  · exact Keeps.pure _

theorem keeps_copyEntry (entry : Path × Entry Content) :
    Keeps first (copyEntry ["versions", build] entry) := by
  refine Keeps.bind (Keeps.read _ _) fun _ => ?_
  have hown : Own (["versions", build] ++ entry.1) := own_of_under (List.prefix_append ..)
  split
  · exact Keeps.fail _
  · refine keeps_createDirAll fun p hp hne => ?_
    -- on the way to a path of the version is the directory of the versions
    obtain ⟨rest, hrest⟩ := (List.mem_inits _ _).1 hp
    cases p with
    | nil => exact absurd rfl hne
    | cons x p =>
      obtain rfl : x = "versions" := (List.cons.inj hrest).1
      cases p with
      | nil => exact .inl rfl
      | cons y p => exact .inr (.inl ⟨y, p, rfl⟩)
  · exact Keeps.bind (keeps_createFile hown) fun _ => keeps_writeFile hown

theorem keeps_moveOrCopyDirectory : Keeps first (moveOrCopyDirectory ["versions", build]) := by
  refine Keeps.bind (Keeps.attempt (Keeps.change fun d d' hd hact => ?_)) fun r => ?_
  · split at hact
    · obtain rfl := Option.some.inj hact
      exact hd.graft
    · cases hact
  · cases r with
    | ok _ => exact Keeps.pure _
    | error _ =>
      refine Keeps.bind (Keeps.read _ _) fun entries => ?_
      exact Keeps.bind (Keeps.each fun entry _ => keeps_copyEntry entry) fun _ => keeps_removeSource

theorem keeps_writeCurrentVersion (current : CurrentVersion) :
    Keeps first (writeCurrentVersion current) := by
  have htemporary : Own temporaryManifest := .inr (by simp)
  have hmanifest : Own [currentManifest] := .inr (by simp)
  rw [writeCurrentVersion]
  split
  · refine Keeps.bind (keeps_createFile htemporary) fun _ => ?_
    refine Keeps.bind (keeps_writeFile htemporary) fun _ => ?_
    refine Keeps.bind (Keeps.read _ _) fun _ => ?_
    refine Keeps.bind (Keeps.probe _ _) fun answer => ?_
    split
    · exact keeps_moveFile htemporary hmanifest
    · exact keeps_moveFile htemporary hmanifest
  · exact Keeps.fail _

theorem keeps_readCurrentVersion : Keeps first readCurrentVersion := by
  refine Keeps.bind (Keeps.read _ _) fun content => ?_
  split
  · split
    · exact Keeps.fail _
    · split
      · exact Keeps.pure _
      · exact Keeps.fail _
  · exact Keeps.fail _

theorem keeps_removeObsoleteVersions (current : PathBuf) (previous : Option PathBuf) :
    Keeps first (removeObsoleteVersions current previous) := by
  refine Keeps.bind (Keeps.attempt (Keeps.read _ _)) fun r => ?_
  split
  · exact Keeps.pure _
  · refine Keeps.each fun name _ => ?_
    split
    · exact Keeps.bind (Keeps.attempt (keeps_removeDirAll fun _ => own_of_under)) fun _ =>
        Keeps.pure _
    · exact Keeps.pure _

end Stages

theorem destination_of_named {plan : InstallPlan} (hdot : plan.build ≠ ".")
    (hdots : plan.build ≠ "..") : plan.destination = ["versions", plan.build] := by
  simp [InstallPlan.destination, resolve, hdot, hdots]

/-- An install of a named build keeps to its paths. -/
theorem keeps_executeInstall (trust : Content → UInt32) {plan : InstallPlan}
    (hdot : plan.build ≠ ".") (hdots : plan.build ≠ "..") :
    Keeps first (executeInstall trust plan) := by
  have hdestination : resolve ["versions", plan.build] = ["versions", plan.build] :=
    destination_of_named hdot hdots
  have hstable : ∀ name ∈ [launcherName, agentName], Own [name] := by
    intro name hname
    rcases List.mem_pair.1 hname with rfl | rfl
    · exact .inr (by simp)
    · exact .inr (by simp)
  refine Keeps.bind (keeps_validateInstallSource trust) fun _ => ?_
  refine Keeps.bind (keeps_validateInstallTarget trust) fun _ => ?_
  split
  · refine Keeps.bind (keeps_createDirAll fun p hp hne => ?_) fun _ => ?_
    · left
      simpa [hne] using hp
    · dsimp only
      rw [hdestination]
      refine Keeps.bind keeps_clearDestination fun _ => ?_
      refine Keeps.bind keeps_moveOrCopyDirectory fun _ => ?_
      refine Keeps.bind (keeps_moveFile (own_of_under (List.prefix_append ..))
        (hstable _ (by simp))) fun _ => ?_
      refine Keeps.bind (keeps_moveFile (own_of_under (List.prefix_append ..))
        (hstable _ (by simp))) fun _ => ?_
      refine Keeps.bind (Keeps.attempt keeps_readCurrentVersion) fun previous => ?_
      exact Keeps.bind (keeps_writeCurrentVersion _) fun _ => keeps_removeObsoleteVersions _ _
  · exact Keeps.fail _

end Contained

/-- A build of dots is the directory of the versions, or that of the installation. -/
theorem destination_of_dots {plan : InstallPlan} (h : plan.build = "." ∨ plan.build = "..") :
    plan.destination <+: ["versions"] := by
  rcases h with h | h <;> simp [InstallPlan.destination, resolve, h]

/-- An install of a build of dots clears all versions. -/
theorem not_contained_of_dots {plan : InstallPlan} (h : plan.build = "." ∨ plan.build = "..") :
    ¬ plan.Contained := by
  intro hcontained
  let i := Installation.example₂₆
  have hsource : ∀ name ∈ [applicationName, launcherName, agentName],
      Installation.signedFile (fun _ => 0) i.disk.source name := by
    intro name hname
    simp only [List.mem_cons, List.not_mem_nil, or_false] at hname
    rcases hname with rfl | rfl | rfl <;> exact ⟨_, rfl, rfl⟩
  have htarget : ∀ name ∈ [launcherName, agentName],
      Installation.signedFile (fun _ => 0) i.disk.target name := by
    intro name hname
    rcases List.mem_pair.1 hname with rfl | rfl <;> exact ⟨_, rfl, rfl⟩
  have hversions : i.disk.target.lookup ["versions"] = some .directory := rfl
  have hdestination : ∀ e ∈ i.disk.target.lookup plan.destination, e = .directory := by
    rcases h with h | h
    · rw [show plan.destination = ["versions"] by simp [InstallPlan.destination, resolve, h]]
      exact fun e he => (Option.some.inj he).symm
    · rw [show plan.destination = [] by simp [InstallPlan.destination, resolve, h]]
      exact fun e he => (Option.some.inj he).symm
  have hsafe : safeVersionComponent plan.build = true := by
    rcases h with h | h <;> rw [h] <;> decide
  have hpasses : Passes (fun d => d = i.disk) (executeInstall (fun _ => 0) plan)
      (fun d => d.target.lookup ["versions"] = none) := by
    refine Passes.bind (validateInstallSource_done hsource) fun _ => ?_
    refine Passes.bind (validateInstallTarget_done htarget rfl) fun _ => ?_
    rw [if_pos hsafe]
    refine Passes.bind (Installation.createDirAll_done fun e he => ?_) fun _ => ?_
    · exact (Option.some.inj (hversions.symm.trans he)).symm
    refine Passes.bind (Installation.clearDestination_done hdestination rfl) fun _ => ?_
    exact Passes.here fun d hd => hd.gone _ (destination_of_dots h)
  obtain ⟨d, hd, hnone⟩ := hpasses { state := i.disk, fates := [], seen := [i.disk] } rfl
    (List.mem_singleton_self _) rfl
  rcases (hcontained (fun _ => 0) i [] d hd).versions with hsame | ⟨habsent, -⟩
  · rw [hnone, hversions] at hsame
    cases hsame
  · rw [hversions] at habsent
    cases habsent

/-! ## The result -/

/-- The release is one that the feed can offer. -/
def Offered (r : FeedReader) (cache : CacheDirectory) (release : Release) : Prop :=
  ∃ document currentBuild systemVersion releases,
    Appcast.parse r document cache.platform = .ok releases ∧
      latestNewerThan releases currentBuild systemVersion = some release

/-- **What a feed can make the updater touch.** The paths of a release stay inside the cache
directory exactly if neither its archive's name nor its staging directory's leads away, and an
install keeps to its paths exactly if its build is no name for a directory above its own. -/
theorem contained_iff (cache : CacheDirectory) :
    (∀ release random, cache.ContainsAll release random ↔
      cache.Spares (cache.platform.path (archiveName release)) ∧
        cache.Spares (cache.platform.path (stagingName release random))) ∧
    ∀ plan : InstallPlan, safeVersionComponent plan.build = true →
      (plan.Contained ↔ plan.build ≠ "." ∧ plan.build ≠ "..") := by
  refine ⟨cache.containsAll_iff, fun plan _ => ⟨fun h => ?_, fun ⟨hdot, hdots⟩ => ?_⟩⟩
  · rw [← not_or]
    exact fun hdots => not_contained_of_dots hdots h
  · intro trust i fates d hd
    have hfirst : Untouched i.disk.target i.disk.target := ⟨fun _ _ _ => rfl, .inl rfl⟩
    refine Program.Ends.seen (keeps_executeInstall trust hdot hdots _ hfirst ?_) d hd
    intro d hd
    rw [List.mem_singleton.1 hd]
    exact hfirst

def exampleCache : CacheDirectory where
  platform := .macOs
  path :=
    { volume := none, rooted := true
      parts := [.name "Users", .name "u", .name "Library", .name "Caches",
        .name "com.superiority.sc2-chat", .name "Updater"] }
  absolute := rfl
  ordinary := by simp

/-- A feed of one release of the build. -/
def exampleFeed (build : String) : Document :=
  { link := "https://example.test/appcast.xml", declared := false
    items := [
      [{ tagNamespace := none, name := "title", attributes := [], content := some (.text "0.1.99") },
        { tagNamespace := some sparkleNamespace, name := "version", attributes := []
          content := some (.text build) },
        { tagNamespace := none, name := "enclosure"
          attributes := [⟨none, "url", "https://example.test/x.zip"⟩, ⟨none, "length", "84"⟩,
            ⟨some sparkleNamespace, "edSignature", "c2ln"⟩]
          content := none }]] }

def exampleOffer (build : String) : Release :=
  { title := "0.1.99", version := "0.1.99", build, minimumSystemVersion := none
    notes := "Release notes are not available for this update.", notesFormat := "plain-text"
    artifact := { url := "https://example.test/x.zip", contentLength := 84
                  ed25519Signature := "c2ln", sha256 := none } }

/-- The build leads the archive three levels above the cache directory: it is `/Users/u/Library/x.zip`. A build `..` is accepted and installed
over the whole installation. -/
theorem not_contained : (¬ ∀ r cache release, Offered r cache release →
      ∀ random, cache.ContainsAll release random) ∧
    ¬ ∀ plan : InstallPlan, safeVersionComponent plan.build = true → plan.Contained := by
  constructor
  · intro h
    have hoffered : Offered Publication.plainReader exampleCache
        (exampleOffer "99/../../../../../x") :=
      ⟨exampleFeed "99/../../../../../x", "26", none, _, rfl, by decide +kernel⟩
    have harchive := (h _ _ _ hoffered (Vector.replicate 12 0)).archive
    revert harchive
    decide +kernel
  · intro h
    exact not_contained_of_dots (.inr rfl) (h { version := "0.1.27", build := ".." } (by decide))

end Superiority.Updater
