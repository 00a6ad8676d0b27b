import Superiority.Updater.Windows

/-!
# What an install keeps

An installation can be launched when its launcher is there and finds, through `current.json`, an
executable that exists. The install of a plan is `Safe` when this holds at every point of it,
whatever fails and wherever the process stops, and when an install that succeeds leaves the new
version current with a rollback beside it.

Until the manifest is switched, every part of the install keeps what is `Kept`: the manifest in
place and the files it needs, as long as these are outside the destination.
-/

namespace Superiority.Updater

open Program

/-- What there is before an install: two trees that exist. -/
structure Installation where
  disk : Disk
  target_closed : disk.target.Closed
  source_closed : disk.source.Closed

/-- The launcher is there and finds an executable. -/
def Launchable (d : Disk) : Prop :=
  d.target.isFile [launcherName] = true ∧ (launch d.target).isOk = true

/-- Where the build goes. -/
def InstallPlan.destination (plan : InstallPlan) : Path := resolve ["versions", plan.build]

/-- `current.json` names the build's executable, which exists; the rollback, if there is one, is
outside the build's directory and exists. -/
def Activated (plan : InstallPlan) (d : Disk) : Prop :=
  match d.target.content [currentManifest] with
  | some (.manifest manifest) =>
    manifest.executable = versionExecutable plan.build ∧
      (spawn d.target manifest.executable).isSome = true ∧
      ∀ previous ∈ manifest.previousExecutable, ∃ path ∈ spawn d.target previous,
        ¬ plan.destination <+: path
  | _ => False

instance (d : Disk) : Decidable (Launchable d) :=
  inferInstanceAs (Decidable (_ = true ∧ _ = true))

instance (plan : InstallPlan) (d : Disk) : Decidable (Activated plan d) :=
  match h : d.target.content [currentManifest] with
  | some (.manifest manifest) =>
    decidable_of_iff (manifest.executable = versionExecutable plan.build ∧
      (spawn d.target manifest.executable).isSome = true ∧
      ∀ previous ∈ manifest.previousExecutable, ∃ path ∈ spawn d.target previous,
        ¬ plan.destination <+: path) (by rw [Activated, h])
  | some (.data _) => .isFalse (by rw [Activated, h]; exact id)
  | some .incomplete => .isFalse (by rw [Activated, h]; exact id)
  | none => .isFalse (by rw [Activated, h]; exact id)

variable (trust : Content → UInt32)

namespace Installation

/-- Whatever becomes of the calls, every point of the install can be launched from, and an install
that returns has activated its build. -/
def Safe (i : Installation) (plan : InstallPlan) : Prop :=
  ∀ fates, (∀ d ∈ ((executeInstall trust plan).run i.disk fates).2.seen, Launchable d) ∧
    (((executeInstall trust plan).run i.disk fates).1 = .ok () →
      Activated plan ((executeInstall trust plan).run i.disk fates).2.state)

/-! ## The condition -/

def signedFile (f : FileTree Content) (name : String) : Prop :=
  ∃ c ∈ f.content [name], trust c = 0

/-- The checks before the first change pass, and the destination is free or a directory. -/
structure Accepts (i : Installation) (plan : InstallPlan) : Prop where
  source : ∀ name ∈ [applicationName, launcherName, agentName], signedFile trust i.disk.source name
  target : ∀ name ∈ [launcherName, agentName], signedFile trust i.disk.target name
  build : safeVersionComponent plan.build = true
  versions : ∀ e ∈ i.disk.target.lookup ["versions"], e = .directory
  destination : ∀ e ∈ i.disk.target.lookup plan.destination, e = .directory

/-- The new manifest cannot be written: its temporary file is in the way. -/
def Blocked (d : Disk) : Prop :=
  d.target.lookup temporaryManifest = some .directory ∨
    d.target.lookup temporaryManifest = some .link

/-- The executable can be started and is not in the directory that the install replaces. -/
def Spared (i : Installation) (plan : InstallPlan) (executable : PathBuf) : Prop :=
  safeExecutable executable = true ∧
    ∃ path ∈ spawn i.disk.target executable, ¬ plan.destination <+: path

def manifest? (i : Installation) : Option CurrentVersion :=
  match i.disk.target.content [currentManifest] with
  | some (.manifest manifest) => some manifest
  | _ => none

/-- An executable to launch remains outside the replaced directory, and the one that becomes the
rollback is such an executable. -/
def SparesRollback (i : Installation) (plan : InstallPlan) : Prop :=
  ∃ manifest ∈ i.manifest?,
    Spared i plan manifest.executable ∨
      (∃ previous ∈ manifest.previousExecutable, Spared i plan previous) ∧
        (Blocked i.disk ∨ manifest.version = none)

instance (i : Installation) (plan : InstallPlan) (e : PathBuf) : Decidable (i.Spared plan e) :=
  inferInstanceAs (Decidable (_ ∧ ∃ path ∈ spawn i.disk.target e, ¬ plan.destination <+: path))

end Installation

/-! ## Launching -/

theorem launch_isOk {f : FileTree Content} :
    (launch f).isOk = true ↔
      ∃ m, f.content [currentManifest] = some (.manifest m) ∧ m.schema = 1 ∧
        safeExecutable m.executable = true ∧
        ((spawn f m.executable).isSome = true ∨ ∃ previous ∈ m.previousExecutable,
          safeExecutable previous = true ∧ (spawn f previous).isSome = true) := by
  rw [launch]
  cases hcontent : f.content [currentManifest] with
  | none => simp [Except.isOk, Except.toBool]
  | some content =>
    cases content with
    | manifest m =>
      by_cases hschema : m.schema = 1
      · by_cases hsafe : safeExecutable m.executable = true
        · cases hspawn : spawn f m.executable with
          | some path => simp [hschema, hsafe, hspawn, Except.isOk, Except.toBool]
          | none =>
            cases hprevious : m.previousExecutable with
            | none => simp [hschema, hsafe, hspawn, hprevious, Except.isOk, Except.toBool]
            | some previous =>
              by_cases hprev : safeExecutable previous = true
              · cases hspawn' : spawn f previous <;>
                  simp [hschema, hsafe, hspawn, hprevious, hprev, hspawn', Except.isOk,
                    Except.toBool]
              · simp [hschema, hsafe, hspawn, hprevious, hprev, Except.isOk, Except.toBool]
        · simp [hschema, hsafe, Except.isOk, Except.toBool]
      · simp [hschema, Except.isOk, Except.toBool]
    | data => simp [Except.isOk, Except.toBool]
    | incomplete => simp [Except.isOk, Except.toBool]

theorem spawn_eq_some {f : FileTree Content} {e : PathBuf} {p : Path} :
    spawn f e = some p ↔ e.toPath = some p ∧ f.isFile p = true := by
  rw [spawn, Option.filter_eq_some_iff]

/-- A path that leads somewhere is made of names. -/
theorem toPath_eq_some {e : PathBuf} {p : Path} :
    e.toPath = some p ↔ e = p.map .normal := by
  rw [PathBuf.toPath]
  induction e generalizing p with
  | nil => cases p <;> simp
  | cons c e ih =>
    cases c with
    | normal name =>
      cases p with
      | nil => simp [Option.bind_eq_some_iff]
      | cons x p => simp [ih, Option.bind_eq_some_iff, and_comm]
    | other => cases p <;> simp

theorem toPath_of_safe {e : PathBuf} (h : safeExecutable e = true) : ∃ p, e.toPath = some p := by
  rw [safeExecutable, Bool.and_eq_true, List.all_eq_true] at h
  refine ⟨e.filterMap Component.name?, toPath_eq_some.2 ?_⟩
  have hall := h.1
  clear h
  induction e with
  | nil => rfl
  | cons c e ih =>
    cases c with
    | normal name =>
      exact congrArg (Component.normal name :: ·)
        (ih fun c hc => hall c (List.mem_cons_of_mem _ hc))
    | other => exact absurd (hall .other List.mem_cons_self) (by simp)

/-- A safe executable is no file with another extension. -/
theorem toPath_ne {e : PathBuf} {p : Path} {name : String} (hsafe : safeExecutable e = true)
    (h : e.toPath = some p) (hname : safeExecutable [.normal name] = false) : p ≠ [name] := by
  intro hp
  rw [toPath_eq_some, hp] at h
  rw [h] at hsafe
  exact absurd (hsafe.symm.trans hname) (by decide)

/-- The version an executable is in is the one the removal keeps for it. -/
theorem keep_of_under {e : PathBuf} {p : Path} {name : String} (h : e.toPath = some p)
    (hunder : ["versions", name] <+: p) : keep e = some name := by
  obtain ⟨rest, rfl⟩ := hunder
  rw [toPath_eq_some] at h
  rw [h]
  rfl

theorem destination_cases (plan : InstallPlan) :
    plan.destination = [] ∨ ∃ rest, plan.destination = "versions" :: rest ∧
      (rest = [] ∨ rest = [plan.build]) := by
  rw [InstallPlan.destination, resolve]
  by_cases hdot : plan.build = "."
  · exact .inr ⟨[], by simp [hdot]⟩
  · by_cases hdots : plan.build = ".."
    · exact .inl (by simp [hdots])
    · exact .inr ⟨[plan.build], by simp [hdot, hdots]⟩

/-- The new executable is where the payload goes. -/
theorem toPath_versionExecutable {plan : InstallPlan}
    (hsafe : safeExecutable (versionExecutable plan.build) = true) :
    (versionExecutable plan.build).toPath = some (plan.destination ++ [applicationName]) := by
  rw [toPath_eq_some, versionExecutable, component, InstallPlan.destination, resolve]
  by_cases hdot : plan.build = "."
  · simp [hdot]
  · by_cases hdots : plan.build = ".."
    · simp [versionExecutable, component, hdots, safeExecutable] at hsafe
    · simp [hdot, hdots]

/-- Nothing at the top of the installation is under a version. -/
theorem not_under_of_singleton {d : Path} {name : String} (hd : d.head? = some "versions")
    (hname : name ≠ "versions") : ¬ d <+: [name] := by
  cases d with
  | nil => cases hd
  | cons x d =>
    intro h
    obtain rfl : x = "versions" := Option.some.inj hd
    exact hname (List.cons_prefix_cons.1 h).1.symm

/-! ## What an install keeps until it switches -/

/-- The manifest is in place, the executables that matter are there, and the temporary manifest is
as blocked as it was. -/
structure Kept (manifest : CurrentVersion) (files : List Path) (blocked : Prop) (d : Disk) :
    Prop where
  manifest : d.target.content [currentManifest] = some (.manifest manifest)
  files : ∀ p ∈ files, d.target.isFile p = true
  blocked : Installation.Blocked d ↔ blocked

/-- A set of files can be launched from when it has what the manifest names. -/
theorem launchable_of_files {d : Disk} {m : CurrentVersion} {files : List Path}
    (hmanifest : d.target.content [currentManifest] = some (.manifest m))
    (hfiles : ∀ p ∈ files, d.target.isFile p = true) (hlauncher : [launcherName] ∈ files)
    (hschema : m.schema = 1) (hsafe : safeExecutable m.executable = true)
    (hnamed : ∃ e, (e = m.executable ∨ e ∈ m.previousExecutable ∧ safeExecutable e = true) ∧
      ∃ p ∈ files, e.toPath = some p) : Launchable d := by
  refine ⟨hfiles _ hlauncher, launch_isOk.2 ⟨m, hmanifest, hschema, hsafe, ?_⟩⟩
  obtain ⟨e, he, p, hp, hpath⟩ := hnamed
  have hspawn : (spawn d.target e).isSome = true := by
    rw [spawn_eq_some.2 ⟨hpath, hfiles p hp⟩]
    rfl
  rcases he with rfl | ⟨he, hprev⟩
  · exact .inl hspawn
  · exact .inr ⟨e, he, hprev, hspawn⟩

section Kept

variable {m : CurrentVersion} {files : List Path} {blocked : Prop} {d : Disk}

/-- A change that touches neither manifest keeps what the files keep. -/
theorem Kept.change {d' : Disk} (h : Kept m files blocked d)
    (hmanifest : d'.target.lookup [currentManifest] = d.target.lookup [currentManifest])
    (htemporary : d'.target.lookup temporaryManifest = d.target.lookup temporaryManifest)
    (hfiles : ∀ p ∈ files, d.target.isFile p = true → d'.target.isFile p = true) :
    Kept m files blocked d' where
  manifest := by rw [FileTree.content_eq_some, hmanifest]; exact FileTree.content_eq_some.1 h.manifest
  files p hp := hfiles p hp (h.files p hp)
  blocked := by
    rw [← h.blocked, Installation.Blocked, htemporary, Installation.Blocked]

theorem Kept.source {f : FileTree Content} (h : Kept m files blocked d) :
    Kept m files blocked { d with source := f } :=
  ⟨h.manifest, h.files, h.blocked⟩

/-- Something under a directory goes that holds nothing that matters. -/
theorem Kept.erase {dir p : Path} (h : Kept m files blocked d) (hp : dir <+: p)
    (hhead : dir.head? = some "versions") (hfiles : ∀ q ∈ files, ¬ dir <+: q) :
    Kept m files blocked { d with target := d.target.erase p } := by
  have htop : ∀ name, name ≠ "versions" → [name] ≠ p := fun name hname hne =>
    not_under_of_singleton hhead hname (hne ▸ hp)
  exact h.change (FileTree.lookup_erase_of_ne (htop _ (by decide)))
    (FileTree.lookup_erase_of_ne (htop _ (by decide)))
    fun q hq => FileTree.isFile_erase fun hne => hfiles q hq (hne ▸ hp)

theorem Kept.insertFile {p : Path} {c : Content} (h : Kept m files blocked d)
    (hp : p ≠ [currentManifest] ∧ p ≠ temporaryManifest) :
    Kept m files blocked { d with target := d.target.insert p (.file c) } :=
  h.change (FileTree.lookup_insert_of_ne hp.1.symm) (FileTree.lookup_insert_of_ne hp.2.symm)
    fun _ _ => FileTree.isFile_insert_file

theorem Kept.insertDirectory {p : Path} (h : Kept m files blocked d)
    (hnone : d.target.lookup p = none) (hp : p ≠ [currentManifest] ∧ p ≠ temporaryManifest) :
    Kept m files blocked { d with target := d.target.insert p .directory } := by
  exact h.change (FileTree.lookup_insert_of_ne hp.1.symm)
    (FileTree.lookup_insert_of_ne hp.2.symm) fun q _ => FileTree.isFile_insert_directory hnone

/-- The temporary manifest is written beside the one in place. -/
theorem Kept.insertTemporary {c : Content} (h : Kept m files blocked d) (hblocked : ¬ blocked) :
    Kept m files blocked { d with target := d.target.insert temporaryManifest (.file c) } where
  manifest := by
    rw [FileTree.content_eq_some, FileTree.lookup_insert_of_ne (by decide)]
    exact FileTree.content_eq_some.1 h.manifest
  files p hp := FileTree.isFile_insert_file (h.files p hp)
  blocked := by
    rw [Installation.Blocked, FileTree.lookup_insert_self]
    exact ⟨fun hb => hb.elim nofun nofun, fun hb => absurd hb hblocked⟩

theorem Kept.graft {dir : Path} {f g : FileTree Content} (h : Kept m files blocked d)
    (hhead : dir.head? = some "versions") (hfiles : ∀ q ∈ files, ¬ dir <+: q) :
    Kept m files blocked { target := d.target.graft dir f, source := g } := by
  have htop : ∀ name, name ≠ "versions" → ¬ dir <+: [name] := fun name hname =>
    not_under_of_singleton hhead hname
  exact h.change (FileTree.lookup_graft_of_not_under (htop _ (by decide)))
    (FileTree.lookup_graft_of_not_under (htop _ (by decide)))
    fun q hq hfile => by rwa [FileTree.isFile_congr (FileTree.lookup_graft_of_not_under (hfiles q hq))]

end Kept

/-! ## What each part keeps -/

section Validation

variable {A P E : Disk → Prop} (hA : ∀ d, P d → A d) (hE : ∀ d, P d → E d)

include hA

theorem areFiles_spec (side : Side) (names : List String) :
    Spec A P (areFiles side names) (fun _ => P) E := by
  induction names with
  | nil => exact Spec.pure fun d h => h
  | cons name names ih =>
    refine Spec.bind (Spec.probe hA) fun answer => ?_
    cases answer with
    | true => exact ih.weaken (fun d h => h.1) (fun _ _ h => h) fun _ h => h
    | false => exact Spec.pure fun d h => h.1

include hE

theorem verifyAuthenticode_spec (side : Side) (name : String) :
    Spec A P (verifyAuthenticode trust side [name])
      (fun _ d => P d ∧ Installation.signedFile trust (d.tree side) name) E := by
  refine Spec.bind (Q := fun status d => P d ∧ ∃ c ∈ (d.tree side).content [name],
      trust c = status) (Spec.read hA (fun d status hP hget => ⟨hP, ?_⟩) hE) fun status => ?_
  · obtain ⟨c, hc, hstatus⟩ := Option.map_eq_some_iff.1 hget
    exact ⟨c, hc, hstatus⟩
  · split
    · next hzero => exact Spec.pure fun d ⟨hP, c, hc, hstatus⟩ => ⟨hP, c, hc, hstatus.trans hzero⟩
    · exact Spec.fail fun d h => hE d h.1

theorem validateInstallSource_spec :
    Spec A P (validateInstallSource trust)
      (fun _ d => P d ∧ ∀ name ∈ [applicationName, launcherName, agentName],
        Installation.signedFile trust d.source name) E := by
  refine Spec.bind (areFiles_spec hA _ _) fun answer => ?_
  cases answer with
  | false => exact Spec.fail hE
  | true =>
    refine Spec.bind (verifyAuthenticode_spec trust hA hE .source _) fun _ => ?_
    refine Spec.bind (verifyAuthenticode_spec trust (fun d h => hA d h.1) (fun d h => hE d h.1)
      .source _) fun _ => ?_
    refine (verifyAuthenticode_spec trust (fun d h => hA d h.1.1) (fun d h => hE d h.1.1)
      .source _).weaken (fun _ h => h) (fun _ d h => ⟨h.1.1.1, ?_⟩) fun _ h => h
    intro name hname
    simp only [List.mem_cons, List.not_mem_nil, or_false] at hname
    rcases hname with rfl | rfl | rfl
    · exact h.1.1.2
    · exact h.1.2
    · exact h.2

theorem validateInstallTarget_spec :
    Spec A P (validateInstallTarget trust)
      (fun _ d => P d ∧ ∀ name ∈ [launcherName, agentName],
        Installation.signedFile trust d.target name) E := by
  refine Spec.bind (areFiles_spec hA _ _) fun answer => ?_
  cases answer with
  | false => exact Spec.fail hE
  | true =>
    refine Spec.bind (verifyAuthenticode_spec trust hA hE .target _) fun _ => ?_
    refine (verifyAuthenticode_spec trust (fun d h => hA d h.1) (fun d h => hE d h.1)
      .target _).weaken (fun _ h => h) (fun _ d h => ⟨h.1.1, ?_⟩) fun _ h => h
    intro name hname
    simp only [List.mem_cons, List.not_mem_nil, or_false] at hname
    rcases hname with rfl | rfl
    · exact h.1.2
    · exact h.2

end Validation

theorem head?_append {p q : Path} {x : String} (h : p.head? = some x) :
    (p ++ q).head? = some x := by
  rw [List.head?_append, h]
  rfl

theorem ne_manifests {p : Path} (h : p.head? = some "versions") :
    p ≠ [currentManifest] ∧ p ≠ temporaryManifest := by
  constructor
  · intro hp
    rw [hp] at h
    exact absurd (Option.some.inj h) (by decide)
  · intro hp
    rw [hp] at h
    exact absurd (Option.some.inj h) (by decide)

section Stages

variable {A : Disk → Prop} {m : CurrentVersion} {files : List Path} {blocked : Prop}
  {src : FileTree Content} {dir : Path}

/-- The state before the switch: the payload may still be in its place. -/
def Before (m : CurrentVersion) (files : List Path) (blocked : Prop) (src : FileTree Content)
    (d : Disk) : Prop :=
  Kept m files blocked d ∧ d.source = src

variable (hA : ∀ d, Kept m files blocked d → A d)

include hA

theorem createDirAll_spec {path : Path} (hhead : path.head? = some "versions") {G : Disk → Prop}
    (hG : ∀ d p, d.target.lookup p = none → G d →
      G { d with target := d.target.insert p .directory }) :
    Spec A (fun d => Kept m files blocked d ∧ G d) (createDirAll path)
      (fun _ d => Kept m files blocked d ∧ G d) (fun d => Kept m files blocked d ∧ G d) := by
  refine Spec.each fun p hp => Spec.change (fun d d' h hact => ?_) fun d h => h
  have hp' : p ≠ [currentManifest] ∧ p ≠ temporaryManifest := by
    simp only [List.mem_filter, List.mem_inits, decide_eq_true_eq] at hp
    obtain ⟨⟨rest, hrest⟩, hne⟩ := hp
    cases p with
    | nil => exact absurd rfl hne
    | cons x p =>
      rw [← hrest] at hhead
      obtain rfl : x = "versions" := Option.some.inj hhead
      exact ⟨by simp [currentManifest], by simp [temporaryManifest]⟩
  split at hact
  · obtain rfl := Option.some.inj hact
    exact ⟨hA _ h.1, h⟩
  · next hnone =>
    obtain rfl := Option.some.inj hact
    have hkept := h.1.insertDirectory hnone hp'
    exact ⟨hA _ hkept, hkept, hG _ _ hnone h.2⟩
  · cases hact

omit hA in
/-- The removal of a directory keeps what each removal below it keeps. -/
theorem removeDirAll_spec {J : Disk → Prop} (hJ : ∀ d, J d → A d)
    (herase : ∀ d p, dir <+: p → J d → J { d with target := d.target.erase p }) :
    Spec A J (removeDirAll .target dir) (fun _ => J) J := by
  refine Spec.bind (Q := fun order d => J d ∧ ∀ p ∈ order, dir <+: p)
    (Spec.read hJ (fun d order h hget => ⟨h, fun p hp => ?_⟩) fun _ h => h) fun order =>
      Spec.assume fun horder => Spec.each fun p hp => Spec.change (fun d d' h hact => ?_)
        fun _ h => h
  · split at hget
    · obtain rfl := Option.some.inj hget
      exact (FileTree.mem_removalOrder.1 hp).2
    · obtain rfl := Option.some.inj hget
      exact List.mem_singleton.1 hp ▸ List.prefix_rfl
    · cases hget
  · obtain rfl := Option.some.inj hact
    have hkept := herase d p (horder p hp) h
    exact ⟨hJ _ hkept, hkept⟩

/-- Removing the payload that was copied. -/
theorem removeSource_spec {G : Disk → Prop} (hG : ∀ d f, G d → G { d with source := f }) :
    Spec A (fun d => Kept m files blocked d ∧ G d) (removeDirAll .source [])
      (fun _ d => Kept m files blocked d ∧ G d) (fun d => Kept m files blocked d) := by
  refine Spec.bind (Q := fun _ d => Kept m files blocked d ∧ G d)
    (Spec.read (fun d h => hA d h.1) (fun d order h _ => h) fun d h => h.1) fun order => ?_
  refine Spec.each fun p hp => Spec.change (fun d d' h hact => ?_) fun d h => h.1
  obtain rfl := Option.some.inj hact
  exact ⟨hA _ h.1.source, h.1.source, hG d _ h.2⟩

/-- A file is put where no manifest is. -/
theorem createFile_spec {path : Path} (hpath : path ≠ [currentManifest] ∧ path ≠ temporaryManifest)
    {P G : Disk → Prop} (hP : ∀ d, P d → Kept m files blocked d)
    (hG : ∀ d c, P d → G { d with target := d.target.insert path (.file c) }) :
    Spec A P (createFile path) (fun _ d => Kept m files blocked d ∧ G d)
      (Kept m files blocked) := by
  refine Spec.change (fun d d' h hact => ?_) hP
  split at hact
  · cases hact
  · obtain rfl := Option.some.inj hact
    have hkept := (hP d h).insertFile (c := .incomplete) hpath
    exact ⟨hA _ hkept, hkept, hG d _ h⟩

theorem writeFile_spec {path : Path} {c : Content}
    (hpath : path ≠ [currentManifest] ∧ path ≠ temporaryManifest)
    {P G : Disk → Prop} (hP : ∀ d, P d → Kept m files blocked d)
    (hG : ∀ d, P d → G { d with target := d.target.insert path (.file c) }) :
    Spec A P (writeFile path c) (fun _ d => Kept m files blocked d ∧ G d)
      (Kept m files blocked) := by
  refine Spec.change (fun d d' h hact => ?_) hP
  obtain rfl := Option.some.inj hact
  have hkept := (hP d h).insertFile (c := c) hpath
  exact ⟨hA _ hkept, hkept, hG d h⟩

/-- What is a file below the destination stays one while the payload is copied. -/
theorem copyEntry_spec (hhead : dir.head? = some "versions") (entry : Path × Entry Content)
    {G : Disk → Prop}
    (hfile : ∀ d p c, G d → G { d with target := d.target.insert p (.file c) })
    (hdirectory : ∀ d p, d.target.lookup p = none → G d →
      G { d with target := d.target.insert p .directory }) :
    Spec A (fun d => Kept m files blocked d ∧ G d) (copyEntry dir entry)
      (fun _ d => Kept m files blocked d ∧ G d) (Kept m files blocked) := by
  refine Spec.bind (Q := fun _ d => Kept m files blocked d ∧ G d)
    (Spec.read (fun d h => hA d h.1) (fun d _ h _ => h) fun d h => h.1) fun _ => ?_
  have hpath := head?_append (q := entry.1) hhead
  split
  · exact Spec.fail fun d h => h.1
  · exact (createDirAll_spec hA hpath hdirectory).weaken (fun _ h => h) (fun _ _ h => h)
      fun _ h => h.1
  · refine Spec.bind (createFile_spec hA (ne_manifests hpath) (fun d h => h.1)
      fun d c h => hfile d _ c h.2) fun _ => ?_
    exact writeFile_spec hA (ne_manifests hpath) (fun d h => h.1) fun d h => hfile d _ _ h.2

theorem copyFile_spec (hhead : dir.head? = some "versions") (p : Path) (c : Content) :
    Spec A (Before m files blocked src) (copyEntry dir (p, .file c))
      (fun _ d => Before m files blocked src d ∧ d.target.isFile (dir ++ p) = true)
      (Kept m files blocked) := by
  have hpath := ne_manifests (head?_append (q := p) hhead)
  refine Spec.bind (Q := fun _ d => Before m files blocked src d)
    (Spec.read (fun d h => hA d h.1) (fun d _ h _ => h) fun d h => h.1) fun _ => ?_
  refine Spec.bind (createFile_spec hA (G := fun d => d.source = src) hpath (fun d h => h.1)
    fun d c h => h.2) fun _ => ?_
  refine (writeFile_spec hA (G := fun d => d.source = src ∧ d.target.isFile (dir ++ p) = true)
    hpath (fun d h => h.1) fun d h => ⟨h.2, ?_⟩).weaken (fun _ h => h)
      (fun _ d h => ⟨⟨h.1, h.2.1⟩, h.2.2⟩) fun _ h => h
  exact FileTree.isFile_iff.2 ⟨c, FileTree.lookup_insert_self ..⟩

/-- The payload was moved to the destination, or is still in its place. -/
def Moved (dir : Path) (src : FileTree Content) (r : Except Error Unit) (d : Disk) : Prop :=
  if r.isOk then d.target.isFile (dir ++ [applicationName]) = true else d.source = src

/-- The payload's application is below the destination when the payload is. -/
theorem moveOrCopyDirectory_spec (hhead : dir.head? = some "versions")
    (hfiles : ∀ q ∈ files, ¬ dir <+: q) (happ : src.isFile [applicationName] = true) :
    Spec A (Before m files blocked src) (moveOrCopyDirectory dir)
      (fun _ d => Kept m files blocked d ∧ d.target.isFile (dir ++ [applicationName]) = true)
      (Kept m files blocked) := by
  refine Spec.bind (Q := fun r d => Kept m files blocked d ∧ Moved dir src r d) ?_ fun r => ?_
  · refine Spec.attempt (Q := fun _ d => Kept m files blocked d ∧
        d.target.isFile (dir ++ [applicationName]) = true) (E := Before m files blocked src)
      (Spec.change (fun d d' h hact => ?_) fun d h => h) (fun _ d h => h) fun _ d h => h
    split at hact
    · obtain rfl := Option.some.inj hact
      have hkept := h.1.graft (f := d.source) (g := []) hhead hfiles
      refine ⟨hA _ hkept, hkept, ?_⟩
      obtain ⟨c, hc⟩ := FileTree.isFile_iff.1 happ
      rw [← h.2] at hc
      exact FileTree.isFile_iff.2 ⟨c, (FileTree.lookup_graft_append ..).trans hc⟩
    · cases hact
  · cases r with
    | ok _ => exact Spec.pure fun d h => h
    | error _ =>
      obtain ⟨c, hc⟩ := FileTree.isFile_iff.1 happ
      refine Spec.bind (Q := fun entries d => Before m files blocked src d ∧ entries = src.walk)
        (Spec.read (fun d h => hA d h.1) (fun d _ h hget => ⟨h, ?_⟩) fun d h => h.1)
        fun entries => Spec.assume fun hentries => ?_
      · rw [← Option.some.inj hget, h.2]
      subst hentries
      -- the application is copied in its turn and stays
      refine Spec.bind (Q := fun _ d => Before m files blocked src d ∧
        d.target.isFile (dir ++ [applicationName]) = true) ?_ fun _ => ?_
      · refine Spec.each_mem (FileTree.mem_walk.2 hc) (copyFile_spec hA hhead _ _)
          (fun entry _ => ?_) fun entry _ => ?_
        · exact copyEntry_spec hA hhead entry (fun _ _ _ h => h) fun _ _ _ h => h
        · refine (copyEntry_spec hA hhead entry (G := fun d => d.source = src ∧
            d.target.isFile (dir ++ [applicationName]) = true) (fun d p c h => ?_)
            fun d p hnone h => ?_).weaken (fun _ h => ⟨h.1.1, h.1.2, h.2⟩)
              (fun _ _ h => ⟨⟨h.1, h.2.1⟩, h.2.2⟩) fun _ h => h
          · exact ⟨h.1, FileTree.isFile_insert_file h.2⟩
          · exact ⟨h.1, FileTree.isFile_insert_directory hnone h.2⟩
      · exact (removeSource_spec hA (G := fun d =>
          d.target.isFile (dir ++ [applicationName]) = true) fun _ _ h => h).weaken
            (fun _ h => ⟨h.1.1, h.2⟩) (fun _ _ h => h) fun _ h => h

theorem clearDestination_spec (hhead : dir.head? = some "versions")
    (hfiles : ∀ q ∈ files, ¬ dir <+: q) :
    Spec A (Before m files blocked src) (clearDestination dir)
      (fun _ => Before m files blocked src) (Kept m files blocked) := by
  refine Spec.bind (Spec.probe fun d h => hA d h.1) fun answer => ?_
  cases answer with
  | false => exact Spec.pure fun d h => h.1
  | true =>
    refine Spec.bind (Q := fun _ d => Before m files blocked src d)
      (Spec.read (fun d h => hA d h.1.1) (fun d _ h _ => h.1) fun d h => h.1.1) fun metadata => ?_
    split
    · refine (removeDirAll_spec (fun d h => hA d h.1) fun d p hp h => ?_).weaken (fun _ h => h)
        (fun _ _ h => h) fun _ h => h.1
      exact ⟨h.1.erase hp hhead hfiles, h.2⟩
    · exact Spec.fail fun d h => h.1

/-- A stable binary is advanced from below the destination. -/
theorem replaceFileDurably_spec (hhead : dir.head? = some "versions")
    (hfiles : ∀ q ∈ files, ¬ dir <+: q) {name : String}
    (hname : [name] ≠ [currentManifest] ∧ [name] ≠ temporaryManifest)
    (happ : name ≠ applicationName) :
    Spec A (fun d => Kept m files blocked d ∧ d.target.isFile (dir ++ [applicationName]) = true)
      (replaceFileDurably (dir ++ [name]) [name])
      (fun _ d => Kept m files blocked d ∧ d.target.isFile (dir ++ [applicationName]) = true)
      (Kept m files blocked) := by
  refine Spec.change (fun d d' h hact => ?_) fun d h => h.1
  split at hact
  · cases hact
  · next content hcontent =>
    split at hact
    · cases hact
    · obtain rfl := Option.some.inj hact
      have hkept := (h.1.erase (List.prefix_append dir [name]) hhead hfiles).insertFile
        (c := content) hname
      refine ⟨hA _ hkept, hkept, FileTree.isFile_insert_file (FileTree.isFile_erase ?_ h.2)⟩
      intro heq
      exact happ (List.singleton_inj.1 (List.append_cancel_left heq)).symm

/-- The manifest that was there is the one that is read. -/
theorem readCurrentVersion_spec {G : Disk → Prop} :
    Spec A (fun d => Kept m files blocked d ∧ G d) (attempt readCurrentVersion)
      (fun r d => (Kept m files blocked d ∧ G d) ∧
        ∀ current, r = .ok current → current = m ∧ m.version ≠ none)
      (Kept m files blocked) := by
  refine Spec.attempt (Q := fun current d => (Kept m files blocked d ∧ G d) ∧
      current = m ∧ m.version ≠ none) (E := fun d => Kept m files blocked d ∧ G d) ?_
    (fun current d h => ⟨h.1, fun c hc => Except.ok.inj hc ▸ h.2⟩) fun _ d h => ⟨h, nofun⟩
  refine Spec.bind (Q := fun content d => (Kept m files blocked d ∧ G d) ∧ content = .manifest m)
    (Spec.read (fun d h => hA d h.1) (fun d content h hget => ⟨h, ?_⟩) fun d h => h)
    fun content => Spec.assume fun hcontent => ?_
  · rw [h.1.manifest] at hget
    exact (Option.some.inj hget).symm
  · subst hcontent
    show Spec A _ (if m.version = none then _ else _) _ _
    split
    · exact Spec.fail fun _ h => h
    · next hversion =>
      split
      · exact Spec.pure fun d h => ⟨h, rfl, hversion⟩
      · exact Spec.fail fun _ h => h

/-- The switch: the old manifest is there until the new one is, whole. -/
theorem writeCurrentVersion_spec {current : CurrentVersion} {app : Path}
    (htop : ∀ p ∈ app :: files, p ≠ temporaryManifest)
    (hA' : safeExecutable current.executable = true → ∀ d,
      d.target.content [currentManifest] = some (.manifest current) →
      (∀ p ∈ app :: files, d.target.isFile p = true) → A d) :
    Spec A (fun d => Kept m files blocked d ∧ d.target.isFile app = true)
      (writeCurrentVersion current)
      (fun _ d => (d.target.content [currentManifest] = some (.manifest current) ∧
        ∀ p ∈ app :: files, d.target.isFile p = true) ∧
        (safeExecutable current.executable = true ∧ ¬ blocked))
      (fun _ => True) := by
  rw [writeCurrentVersion]
  split
  · next hsafe =>
    refine Spec.bind (Q := fun _ d => (Kept m files blocked d ∧ d.target.isFile app = true) ∧
      ¬ blocked) (Spec.change (fun d d' h hact => ?_) fun _ _ => trivial) fun _ => ?_
    · split at hact
      · cases hact
      · next hfree =>
        obtain rfl := Option.some.inj hact
        have hblocked : ¬ blocked := fun hb => hfree
          ((h.1.blocked.2 hb).imp_right Or.inl)
        have hkept := h.1.insertTemporary (c := .incomplete) hblocked
        exact ⟨hA _ hkept, ⟨hkept, FileTree.isFile_insert_file h.2⟩, hblocked⟩
    refine Spec.assume fun hblocked => ?_
    refine Spec.bind (Q := fun _ d => (Kept m files blocked d ∧ d.target.isFile app = true) ∧
      d.target.content temporaryManifest = some (.manifest current))
      (Spec.change (fun d d' h hact => ?_) fun _ _ => trivial) fun _ => ?_
    · obtain rfl := Option.some.inj hact
      have hkept := h.1.insertTemporary (c := .manifest current) hblocked
      exact ⟨hA _ hkept, ⟨hkept, FileTree.isFile_insert_file h.2⟩,
        FileTree.content_eq_some.2 (FileTree.lookup_insert_self ..)⟩
    refine Spec.bind (Q := fun _ d => (Kept m files blocked d ∧ d.target.isFile app = true) ∧
      d.target.content temporaryManifest = some (.manifest current))
      (Spec.read (fun d h => hA d h.1.1) (fun d _ h _ => h) fun _ _ => trivial) fun _ => ?_
    -- the move replaces the manifest in one step
    have hmove : ∀ e, Spec A (fun d => (Kept m files blocked d ∧ d.target.isFile app = true) ∧
        d.target.content temporaryManifest = some (.manifest current))
        (moveFile e temporaryManifest [currentManifest])
        (fun _ d => (d.target.content [currentManifest] = some (.manifest current) ∧
          ∀ p ∈ app :: files, d.target.isFile p = true) ∧
          (safeExecutable current.executable = true ∧ ¬ blocked)) (fun _ => True) := by
      intro e
      refine Spec.change (fun d d' h hact => ?_) fun _ _ => trivial
      rw [h.2] at hact
      dsimp only at hact
      split at hact
      · cases hact
      · obtain rfl := Option.some.inj hact
        have hmanifest := FileTree.content_eq_some.2
          (FileTree.lookup_insert_self (d.target.erase temporaryManifest) [currentManifest]
            (.file (.manifest current)))
        have hfiles : ∀ p ∈ app :: files, ((d.target.erase temporaryManifest).insert
            [currentManifest] (.file (.manifest current))).isFile p = true := by
          intro p hp
          refine FileTree.isFile_insert_file (FileTree.isFile_erase (htop p hp) ?_)
          rcases List.mem_cons.1 hp with rfl | hp
          · exact h.1.2
          · exact h.1.1.files p hp
        exact ⟨hA' hsafe _ hmanifest hfiles, ⟨hmanifest, hfiles⟩, hsafe, hblocked⟩
    refine Spec.bind (Spec.probe fun d h => hA d h.1.1) fun answer => ?_
    split
    · exact (hmove _).weaken (fun _ h => h.1) (fun _ _ h => h) fun _ h => h
    · exact (hmove _).weaken (fun _ h => h.1) (fun _ _ h => h) fun _ h => h
  · exact Spec.fail fun _ _ => trivial

omit hA in
/-- The obsolete versions go; what is in neither of the two that are kept is all that goes. -/
theorem removeObsoleteVersions_spec {current : PathBuf} {previous : Option PathBuf}
    {J E : Disk → Prop} (hJ : ∀ d, J d → A d)
    (herase : ∀ d name p, some name ≠ keep current → some name ≠ previous.bind keep →
      ["versions", name] <+: p → J d → J { d with target := d.target.erase p }) :
    Spec A J (removeObsoleteVersions current previous) (fun _ => J) E := by
  refine Spec.bind (Q := fun _ => J) (Spec.attempt (Q := fun _ => J) (E := J)
    (Spec.read hJ (fun d _ h _ => h) fun _ h => h) (fun _ _ h => h) fun _ _ h => h) fun r => ?_
  split
  · exact Spec.pure fun _ h => h
  · refine Spec.each fun name _ => ?_
    split
    · next hname =>
      exact Spec.bind (Q := fun _ => J) (Spec.attempt (Q := fun _ => J) (E := J)
        (removeDirAll_spec hJ fun d p hp => herase d name p hname.1 hname.2 hp)
        (fun _ _ h => h) fun _ _ h => h) fun _ => Spec.pure fun _ h => h
    · exact Spec.pure fun _ h => h

end Stages

end Superiority.Updater
