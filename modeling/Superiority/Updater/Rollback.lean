import Superiority.Updater.Install

/-!
# An install never leaves the product unlaunchable

* **`Installation.safe_iff`** – which installs are safe.

That the others are not is seen in the run that nothing disturbs: either it clears the last
executable that could be launched, or it returns with a rollback that is not one.
-/

namespace Superiority.Updater

open Program

variable (trust : Content → UInt32)

/-! ## Safe installs -/

theorem head?_destination {plan : InstallPlan} {p : Path} (h : ¬ plan.destination <+: p) :
    plan.destination.head? = some "versions" := by
  rcases destination_cases plan with hd | ⟨rest, hd, _⟩
  · exact absurd (hd ▸ List.nil_prefix) h
  · rw [hd]
    rfl

/-- The manifest and the files it needs, after the switch. -/
structure Switched (current : CurrentVersion) (files : List Path) (d : Disk) : Prop where
  manifest : d.target.content [currentManifest] = some (.manifest current)
  files : ∀ p ∈ files, d.target.isFile p = true

section Activate

variable {A : Disk → Prop} {m : CurrentVersion} {plan : InstallPlan} {e : PathBuf} {p : Path}
  {blocked : Prop}

/-- The files that keep the installation launchable: the launcher and a spared executable. -/
def spare (p : Path) : List Path := [[launcherName], p]

theorem not_under_of_mem_spare (hp : ¬ plan.destination <+: p) :
    ∀ q ∈ spare p, ¬ plan.destination <+: q := by
  intro q hq
  rcases List.mem_pair.1 hq with rfl | rfl
  · exact not_under_of_singleton (head?_destination hp) (by decide)
  · exact hp

/-- The removal of obsolete versions spares the new version and its rollback. -/
theorem Switched.erase {current : CurrentVersion} {files : List Path} {d : Disk} {name : String}
    {q : Path} (h : Switched current files d)
    (hfiles : ∀ p ∈ files, p = [launcherName] ∨
      current.executable.toPath = some p ∨ current.previousExecutable.bind (·.toPath) = some p)
    (hcurrent : some name ≠ keep current.executable)
    (hprevious : some name ≠ current.previousExecutable.bind keep)
    (hq : ["versions", name] <+: q) :
    Switched current files { d with target := d.target.erase q } := by
  have hhead : q.head? = some "versions" := by
    obtain ⟨rest, rfl⟩ := hq
    rfl
  constructor
  · rw [FileTree.content_eq_some, FileTree.lookup_erase_of_ne (ne_manifests hhead).1.symm]
    exact FileTree.content_eq_some.1 h.manifest
  · intro p hp
    refine FileTree.isFile_erase (fun hpq => ?_) (h.files p hp)
    rcases hfiles p hp with rfl | hpath | hpath
    · rw [← hpq] at hhead
      exact absurd (Option.some.inj hhead) (by decide)
    · exact hcurrent (keep_of_under hpath (hpq ▸ hq)).symm
    · obtain ⟨previous, hsome, hpath⟩ := Option.bind_eq_some_iff.1 hpath
      apply hprevious
      rw [hsome, Option.bind_some, keep_of_under hpath (hpq ▸ hq)]

/-- A spared executable keeps the installation launchable while it is activated, and the version
that was current becomes the rollback. -/
theorem activate_spec (hp : ¬ plan.destination <+: p) (hpath : e.toPath = some p)
    (hsafe : safeExecutable e = true)
    (hA : ∀ d, Kept m (spare p) blocked d → A d)
    (hA' : ∀ d current, current.schema = 1 → safeExecutable current.executable = true →
      d.target.content [currentManifest] = some (.manifest current) →
      d.target.isFile [launcherName] = true → (spawn d.target current.executable).isSome = true →
      A d)
    (hrollback : e = m.executable ∨ blocked ∨ m.version = none) :
    Spec A (fun d => Kept m (spare p) blocked d ∧
        d.target.isFile (plan.destination ++ [applicationName]) = true)
      (activate plan) (fun _ => Activated plan) (fun _ => True) := by
  refine Spec.bind ((readCurrentVersion_spec hA).weaken (fun _ h => h) (fun _ _ h => h)
    fun _ _ => trivial) fun previous => Spec.assume fun hprevious => ?_
  have hhead := head?_destination hp
  refine Spec.bind (Spec.weaken (writeCurrentVersion_spec hA ?_ ?_) (fun _ h => h) (fun _ _ h => h)
    fun _ h => h) fun _ => Spec.assume fun ⟨hnew, hblocked⟩ => ?_
  · intro q hq
    rcases List.mem_cons.1 hq with rfl | hq
    · exact (ne_manifests (head?_append hhead)).2
    · rcases List.mem_pair.1 hq with rfl | rfl
      · decide
      · exact toPath_ne hsafe hpath (by decide)
  · intro hnew d hmanifest hfiles
    refine hA' d _ rfl hnew hmanifest (hfiles _ (by simp [spare])) ?_
    rw [spawn_eq_some.2 ⟨toPath_versionExecutable hnew, hfiles _ List.mem_cons_self⟩]
    rfl
  · have hpathNew := toPath_versionExecutable hnew
    -- what is kept, with the rollback if one is recorded
    obtain ⟨files, hsub, hlauncher, happ, hfiles, hrecorded⟩ : ∃ files,
        (∀ q ∈ files, q ∈ (plan.destination ++ [applicationName]) :: spare p) ∧
        [launcherName] ∈ files ∧ plan.destination ++ [applicationName] ∈ files ∧
        (∀ q ∈ files, q = [launcherName] ∨ (versionExecutable plan.build).toPath = some q ∨
          (previous.toOption.map (·.executable)).bind (·.toPath) = some q) ∧
        ∀ r ∈ previous.toOption.map (·.executable), r.toPath = some p ∧ p ∈ files := by
      cases previous with
      | error _ =>
        refine ⟨[plan.destination ++ [applicationName], [launcherName]], ?_, ?_, ?_, ?_, nofun⟩
        all_goals simp [spare, hpathNew]
      | ok current =>
        obtain ⟨hsame, hversion⟩ := hprevious current rfl
        have hpath : current.executable.toPath = some p := by
          rwa [hsame, ← hrollback.resolve_right (not_or.2 ⟨hblocked, hversion⟩)]
        refine ⟨(plan.destination ++ [applicationName]) :: spare p, fun q hq => hq, ?_, ?_, ?_, ?_⟩
        · simp [spare]
        · simp
        · simp [spare, hpathNew, hpath, Except.toOption]
        · intro r hr
          obtain rfl := Option.some.inj hr
          exact ⟨hpath, by simp [spare]⟩
    refine (removeObsoleteVersions_spec (J := Switched _ files) (E := fun _ => True) (fun d h => ?_)
      fun d name q hcurrent hkeep hq h => h.erase hfiles hcurrent hkeep hq).weaken
        (fun d h => ⟨h.1, fun q hq => h.2 q (hsub q hq)⟩) (fun _ d h => ?_) fun _ h => h
    · refine hA' d _ rfl hnew h.manifest (h.files _ hlauncher) ?_
      rw [spawn_eq_some.2 ⟨hpathNew, h.files _ happ⟩]
      rfl
    · rw [Activated, h.manifest]
      refine ⟨rfl, ?_, fun r hr => ?_⟩
      · rw [spawn_eq_some.2 ⟨hpathNew, h.files _ happ⟩]
        rfl
      · obtain ⟨hr, hmem⟩ := hrecorded r hr
        exact ⟨p, spawn_eq_some.2 ⟨hr, h.files p hmem⟩, hp⟩

end Activate

namespace Installation

variable {trust} {i : Installation} {plan : InstallPlan}

theorem manifest?_eq_some {m : CurrentVersion} :
    i.manifest? = some m ↔ i.disk.target.content [currentManifest] = some (.manifest m) := by
  rw [manifest?]
  split
  · next m' h => simp [h]
  · next h =>
    constructor
    · nofun
    · intro hm
      exact absurd hm (h m)

/-- The manifest of an installation that can be launched. -/
theorem exists_manifest (h : Launchable i.disk) :
    ∃ m, i.manifest? = some m ∧ m.schema = 1 ∧ safeExecutable m.executable = true := by
  obtain ⟨m, hm, hschema, hsafe, _⟩ := launch_isOk.1 h.2
  exact ⟨m, manifest?_eq_some.2 hm, hschema, hsafe⟩

/-- An install that spares the rollback is safe at every point. -/
theorem executeInstall_spec (h : Launchable i.disk) (hspares : i.SparesRollback plan) :
    Spec Launchable (fun d => d = i.disk) (executeInstall trust plan) (fun _ => Activated plan)
      (fun _ => True) := by
  obtain ⟨m, hm, hspared⟩ := hspares
  obtain ⟨m', hm', hschema, hsafeM⟩ := exists_manifest h
  obtain rfl : m' = m := Option.some.inj (hm'.symm.trans hm)
  -- the executable that stays, and why it can serve as the rollback
  obtain ⟨e, p, he, hsafe, hspawn, hp, hrollback⟩ : ∃ e p,
      (e = m'.executable ∨ e ∈ m'.previousExecutable ∧ safeExecutable e = true) ∧
      safeExecutable e = true ∧ spawn i.disk.target e = some p ∧ ¬ plan.destination <+: p ∧
      (e = m'.executable ∨ Blocked i.disk ∨ m'.version = none) := by
    rcases hspared with ⟨hsafe, p, hspawn, hp⟩ | ⟨⟨e, he, hsafe, p, hspawn, hp⟩, hwhy⟩
    · exact ⟨_, p, .inl rfl, hsafe, hspawn, hp, .inl rfl⟩
    · exact ⟨e, p, .inr ⟨he, hsafe⟩, hsafe, hspawn, hp, .inr hwhy⟩
  obtain ⟨hpath, hfile⟩ := spawn_eq_some.1 hspawn
  have hhead := head?_destination hp
  have hfiles := not_under_of_mem_spare hp
  have hA : ∀ d, Kept m' (spare p) (Blocked i.disk) d → Launchable d := fun d hk =>
    launchable_of_files hk.manifest hk.files (by simp [spare]) hschema hsafeM
      ⟨e, he, p, by simp [spare], hpath⟩
  have hkept : Kept m' (spare p) (Blocked i.disk) i.disk := by
    refine ⟨manifest?_eq_some.1 hm', fun q hq => ?_, Iff.rfl⟩
    rcases List.mem_pair.1 hq with rfl | rfl
    · exact h.1
    · exact hfile
  refine Spec.bind ((validateInstallSource_spec trust
    (P := Before m' (spare p) (Blocked i.disk) i.disk.source) (E := fun _ => True)
    (fun d hd => hA d hd.1) fun _ _ => trivial).weaken (fun d hd => by rw [hd]; exact ⟨hkept, rfl⟩)
      (fun _ _ hd => hd) fun _ hd => hd) fun _ => ?_
  refine Spec.bind ((validateInstallTarget_spec trust (E := fun _ => True)
    (fun d hd => hA d hd.1.1) fun _ _ => trivial).weaken (fun _ hd => hd)
      (fun _ _ hd => hd) fun _ hd => hd) fun _ => ?_
  split
  · refine Spec.bind (Q := fun _ d => Before m' (spare p) (Blocked i.disk) i.disk.source d ∧
      i.disk.source.isFile [applicationName] = true)
      ((createDirAll_spec hA rfl (G := fun d => d.source = i.disk.source ∧
        i.disk.source.isFile [applicationName] = true) fun _ _ _ hG => hG).weaken
        (fun d hd => ⟨hd.1.1.1, hd.1.1.2, ?_⟩) (fun _ d hd => ⟨⟨hd.1, hd.2.1⟩, hd.2.2⟩)
        fun _ _ => trivial) fun _ => Spec.assume fun happ => ?_
    · obtain ⟨c, hc, _⟩ := hd.1.2 applicationName (by simp)
      rw [← hd.1.1.2]
      exact FileTree.isFile_iff.2 ⟨c, FileTree.content_eq_some.1 hc⟩
    refine Spec.bind ((clearDestination_spec hA hhead hfiles).weaken (fun _ hd => hd)
      (fun _ _ hd => hd) fun _ _ => trivial) fun _ => ?_
    refine Spec.bind ((moveOrCopyDirectory_spec hA hhead hfiles happ).weaken (fun _ hd => hd)
      (fun _ _ hd => hd) fun _ _ => trivial) fun _ => ?_
    refine Spec.bind ((replaceFileDurably_spec hA hhead hfiles (by decide) (by decide)).weaken
      (fun _ hd => hd) (fun _ _ hd => hd) fun _ _ => trivial) fun _ => ?_
    refine Spec.bind ((replaceFileDurably_spec hA hhead hfiles (by decide) (by decide)).weaken
      (fun _ hd => hd) (fun _ _ hd => hd) fun _ _ => trivial) fun _ => ?_
    refine activate_spec hp hpath hsafe hA (fun d current hschema hsafe hmanifest hlauncher hspawn =>
      ⟨hlauncher, launch_isOk.2 ⟨current, hmanifest, hschema, hsafe, .inl hspawn⟩⟩) hrollback
  · exact Spec.fail fun _ _ => trivial

/-- What an installation that can be launched has at its root. -/
theorem lookup_root (h : Launchable i.disk) : i.disk.target.lookup [] = some .directory := by
  obtain ⟨c, hc⟩ := FileTree.isFile_iff.1 h.1
  exact i.target_closed [launcherName] (by simp [hc]) [] List.nil_prefix (by simp)

/-- Where the way to the destination is not one of directories, nothing is made. -/
theorem createDirAll_refused {A : Disk → Prop} {d₀ : Disk} {path : Path} (hA : A d₀)
    {bad : Path} {e : Entry Content} (hbad : bad ∈ path.inits.filter (· ≠ []))
    (hentry : d₀.target.lookup bad = some e) (he : e ≠ .directory)
    (hsafe : ∀ p ∈ path.inits.filter (· ≠ []), p ≠ bad → d₀.target.lookup p = some .directory) :
    Spec A (fun d => d = d₀) (createDirAll path) (fun _ _ => False) (fun d => d = d₀) := by
  refine (Spec.each_mem (P := fun d => d = d₀) (G := fun _ => False) hbad ?_ (fun p hp => ?_)
    fun p _ w hw => absurd hw.2 id).weaken (fun _ h => h) (fun _ _ h => h.2) fun _ h => h
  · refine Spec.change (fun d d' hd hact => ?_) fun _ h => h
    rw [hd, hentry] at hact
    cases e with
    | directory => exact absurd rfl he
    | file => cases hact
    | link => cases hact
  · refine Spec.change (fun d d' hd hact => ?_) fun _ h => h
    by_cases hp' : p = bad
    · rw [hd, hp', hentry] at hact
      cases e with
      | directory => exact absurd rfl he
      | file => cases hact
      | link => cases hact
    · rw [hd, hsafe p hp hp'] at hact
      rw [← Option.some.inj hact]
      exact ⟨hA, rfl⟩

/-- A destination that is not a directory is neither cleared nor replaced. -/
theorem place_refused {d₀ : Disk} {dir : Path} {e : Entry Content} (h : Launchable d₀)
    (hsource : d₀.source.lookup [] = some .directory) (hentry : d₀.target.lookup dir = some e)
    (he : e ≠ .directory) (hne : dir ≠ [])
    (hway : ∀ p ∈ dir.inits.filter (· ≠ []), p ≠ dir → d₀.target.lookup p = some .directory)
    {f : Unit → Install Unit} :
    Spec Launchable (fun d => d = d₀) (clearDestination dir >>= fun _ =>
      moveOrCopyDirectory dir >>= f) (fun _ _ => False) (fun _ => True) := by
  have hA : ∀ d, d = d₀ → Launchable d := fun d hd => hd ▸ h
  refine Spec.bind (Q := fun _ d => d = d₀) ?_ fun _ => Spec.bind (Q := fun _ _ => False) ?_
    fun _ w hw => absurd hw id
  · refine Spec.bind (Spec.probe hA) fun answer => ?_
    cases answer with
    | false => exact Spec.pure fun d hd => hd.1
    | true =>
      refine Spec.bind (Q := fun metadata d => d = d₀ ∧ metadata = e)
        (Spec.read (fun d hd => hA d hd.1) (fun d metadata hd hget => ⟨hd.1, ?_⟩)
          fun _ _ => trivial) fun metadata => Spec.assume fun hmetadata => ?_
      · rw [hd.1, hentry] at hget
        exact (Option.some.inj hget).symm
      · rw [hmetadata, if_neg he]
        exact Spec.fail fun _ _ => trivial
  · refine Spec.bind (Q := fun r d => d = d₀ ∧ ∀ u, r ≠ .ok u) (Spec.attempt
      (Q := fun _ _ => False) (E := fun d => d = d₀) (Spec.change (fun d d' hd hact => ?_)
        fun _ hd => hd) (fun _ _ hd => absurd hd id) fun _ d hd => ⟨hd, nofun⟩)
      fun r => Spec.assume fun hr => ?_
    · rw [if_neg (fun hfree => by rw [hd, hentry] at hfree; cases hfree.2.1)] at hact
      cases hact
    · cases r with
      | ok u => exact absurd rfl (hr u)
      | error _ =>
        refine Spec.bind (Q := fun entries d => d = d₀ ∧ entries = d₀.source.walk)
          (Spec.read (fun d hd => hA d hd) (fun d _ hd hget => ⟨hd, ?_⟩) fun _ _ => trivial)
          fun entries => Spec.assume fun hentries => ?_
        · rw [← Option.some.inj hget, hd]
        · obtain ⟨rest, hwalk⟩ := FileTree.walk_eq_cons hsource
          rw [hentries, hwalk]
          refine Spec.bind (Q := fun _ _ => False) ?_ fun _ w hw => absurd hw id
          -- the first entry to copy is the root of the payload
          refine Spec.bind (Q := fun _ d => False) ?_ fun _ w hw => absurd hw id
          refine Spec.bind (Q := fun _ d => d = d₀) (Spec.read hA (fun d _ hd _ => hd)
            fun _ _ => trivial) fun _ => ?_
          show Spec _ _ (createDirAll (dir ++ [])) _ _
          rw [List.append_nil]
          refine (createDirAll_refused h ?_ hentry he hway).weaken (fun _ hd => hd)
            (fun _ _ hd => hd) fun _ _ => trivial
          simpa using hne

/-- An install that is not accepted fails before it changes anything. -/
theorem executeInstall_refused (h : Launchable i.disk) (hrefused : ¬ i.Accepts trust plan) :
    Spec Launchable (fun d => d = i.disk) (executeInstall trust plan) (fun _ _ => False)
      (fun _ => True) := by
  have hA : ∀ d, d = i.disk → Launchable d := fun d hd => hd ▸ h
  refine Spec.bind (validateInstallSource_spec trust hA fun _ _ => trivial) fun _ => ?_
  refine Spec.bind (validateInstallTarget_spec trust (fun d hd => hA d hd.1) fun _ _ => trivial)
    fun _ => ?_
  split
  · next hbuild =>
    refine Spec.weaken (P := fun d => d = i.disk ∧
      ((∀ name ∈ [applicationName, launcherName, agentName], signedFile trust i.disk.source name) ∧
        ∀ name ∈ [launcherName, agentName], signedFile trust i.disk.target name)) ?_
      (fun d ⟨⟨hd, hsource⟩, htarget⟩ => ⟨hd, hd ▸ hsource, hd ▸ htarget⟩) (fun _ _ hd => hd)
      fun _ hd => hd
    refine Spec.assume fun ⟨hsource, htarget⟩ => ?_
    have hinits : (["versions"] : Path).inits.filter (· ≠ []) = [["versions"]] := rfl
    by_cases hversions : ∀ e ∈ i.disk.target.lookup ["versions"], e = .directory
    · -- what is not a directory is the destination
      obtain ⟨e, hentry, he⟩ : ∃ e ∈ i.disk.target.lookup plan.destination, e ≠ .directory := by
        by_contra hnone
        push Not at hnone
        exact hrefused ⟨hsource, htarget, hbuild, hversions, hnone⟩
      rcases destination_cases plan with hd | ⟨_, hd, rfl | rfl⟩
      · rw [hd, Option.mem_def, lookup_root h] at hentry
        exact absurd (Option.some.inj hentry).symm he
      · exact absurd (hversions e (hd ▸ hentry)) he
      · have hway : i.disk.target.lookup ["versions"] = some .directory :=
          i.target_closed plan.destination (by simp [Option.mem_def.1 hentry]) ["versions"]
            (hd ▸ by simp) (hd ▸ by simp)
        have hroot : i.disk.source.lookup [] = some .directory := by
          obtain ⟨c, hc, _⟩ := hsource applicationName (by simp)
          exact i.source_closed [applicationName] (by simp [FileTree.content_eq_some.1 hc]) []
            List.nil_prefix (by simp)
        refine Spec.bind (Q := fun _ d => d = i.disk) (Spec.each fun p hp => ?_) fun _ => ?_
        · rw [hinits, List.mem_singleton] at hp
          refine Spec.change (fun d d' hdisk hact => ?_) fun _ _ => trivial
          rw [hp, hdisk, hway] at hact
          rw [← Option.some.inj hact]
          exact ⟨h, rfl⟩
        · refine place_refused h hroot hentry he (by simp [hd]) fun p hp hne => ?_
          have hp' : p = ["versions"] := by
            rw [hd] at hp hne
            have hp : p ∈ [["versions"], ["versions", plan.build]] := hp
            exact (List.mem_pair.1 hp).resolve_right hne
          rw [hp', hway]
    · push Not at hversions
      obtain ⟨e, hentry, he⟩ := hversions
      refine Spec.bind (Q := fun _ _ => False) ((createDirAll_refused h
        (hinits ▸ List.mem_singleton_self _) hentry he fun p hp hne => ?_).weaken (fun _ hd => hd)
          (fun _ _ hd => hd) fun _ _ => trivial) fun _ w hw => absurd hw id
      exact absurd (List.mem_singleton.1 (hinits ▸ hp)) hne
  · exact Spec.fail fun _ _ => trivial

/-- The safe installs. -/
theorem safe_of_condition (h : Launchable i.disk)
    (hcondition : ¬ i.Accepts trust plan ∨ i.SparesRollback plan) : i.Safe trust plan := by
  have hspec : Spec Launchable (fun d => d = i.disk) (executeInstall trust plan)
      (fun _ => Activated plan) (fun _ => True) := by
    rcases hcondition with hrefused | hspares
    · exact (executeInstall_refused h hrefused).weaken (fun _ hd => hd)
        (fun _ _ hd => absurd hd id) fun _ hd => hd
    · exact executeInstall_spec h hspares
  intro fates
  have hend := hspec { state := i.disk, fates, seen := [i.disk] } rfl fun d hd =>
    List.mem_singleton.1 hd ▸ h
  refine ⟨hend.seen, fun hok => ?_⟩
  exact hend.value hok

end Installation

/-! ## The install that nothing disturbs -/

section Undisturbed

variable {trust}

theorem areFiles_done {d₀ : Disk} {side : Side} {names : List String}
    (h : ∀ name ∈ names, (d₀.tree side).isFile [name] = true) :
    Done (fun d => d = d₀) (areFiles side names) (fun answer d => d = d₀ ∧ answer = true) := by
  induction names with
  | nil => exact Done.pure fun d hd => ⟨hd, rfl⟩
  | cons name names ih =>
    refine Done.bind (Q := fun answer d => d = d₀ ∧ answer = true)
      (Done.probe.weaken (fun _ hd => hd) fun answer d hd => ⟨hd.1, ?_⟩) fun answer =>
        Done.assume fun hanswer => ?_
    · rw [hd.2, hd.1]
      exact h name List.mem_cons_self
    · rw [hanswer]
      exact ih fun name hname => h name (List.mem_cons_of_mem _ hname)

theorem verifyAuthenticode_done {d₀ : Disk} {side : Side} {name : String}
    (h : Installation.signedFile trust (d₀.tree side) name) :
    Done (fun d => d = d₀) (verifyAuthenticode trust side [name]) (fun _ d => d = d₀) := by
  obtain ⟨c, hc, htrust⟩ := h
  refine Done.bind (Q := fun status d => d = d₀ ∧ status = 0)
    (Done.read fun d hd => ⟨0, ?_, hd, rfl⟩) fun status => Done.assume fun hstatus => ?_
  · rw [hd, Option.mem_def.1 hc, Option.map_some, htrust]
  · rw [if_pos hstatus]
    exact Done.pure fun d hd => hd

theorem isFile_of_signed {f : FileTree Content} {name : String}
    (h : Installation.signedFile trust f name) : f.isFile [name] = true := by
  obtain ⟨c, hc, _⟩ := h
  exact FileTree.isFile_iff.2 ⟨c, FileTree.content_eq_some.1 hc⟩

theorem validateInstallSource_done {d₀ : Disk}
    (h : ∀ name ∈ [applicationName, launcherName, agentName],
      Installation.signedFile trust d₀.source name) :
    Done (fun d => d = d₀) (validateInstallSource trust) (fun _ d => d = d₀) := by
  refine Done.bind (areFiles_done fun name hname => isFile_of_signed (h name hname)) fun answer =>
    Done.assume fun hanswer => ?_
  rw [if_pos hanswer]
  refine Done.bind (verifyAuthenticode_done (h _ (by simp))) fun _ => ?_
  exact Done.bind (verifyAuthenticode_done (h _ (by simp))) fun _ =>
    verifyAuthenticode_done (h _ (by simp))

theorem validateInstallTarget_done {d₀ : Disk}
    (h : ∀ name ∈ [launcherName, agentName], Installation.signedFile trust d₀.target name)
    (hmanifest : d₀.target.isFile [currentManifest] = true) :
    Done (fun d => d = d₀) (validateInstallTarget trust) (fun _ d => d = d₀) := by
  refine Done.bind (areFiles_done fun name hname => ?_) fun answer =>
    Done.assume fun hanswer => ?_
  · simp only [List.mem_cons, List.not_mem_nil, or_false] at hname
    rcases hname with rfl | rfl | rfl
    · exact isFile_of_signed (h _ (by simp))
    · exact isFile_of_signed (h _ (by simp))
    · exact hmanifest
  · rw [if_pos hanswer]
    exact Done.bind (verifyAuthenticode_done (h _ (by simp))) fun _ =>
      verifyAuthenticode_done (h _ (by simp))

end Undisturbed

theorem foldl_erase (paths : List Path) (d : Disk) :
    paths.foldl (fun d p => d.withTree ((d.tree .target).erase p) .target) d =
      { d with target := d.target.eraseAll paths } := by
  induction paths generalizing d with
  | nil => rfl
  | cons p paths ih => exact ih _

theorem removeDirAll_done {d₀ : Disk} {dir : Path}
    (h : d₀.target.lookup dir = some .directory) :
    Done (fun d => d = d₀) (removeDirAll .target dir)
      (fun _ d => d = { d₀ with target := d₀.target.eraseAll (d₀.target.removalOrder dir) }) := by
  refine Done.bind (Q := fun order d => d = d₀ ∧ order = d₀.target.removalOrder dir)
    (Done.read fun d hd => ⟨d₀.target.removalOrder dir, ?_, hd, rfl⟩) fun order =>
      Done.assume fun horder => ?_
  · subst hd
    simp only [Disk.tree, h]
  · rw [horder, ← foldl_erase]
    exact Done.each_change

namespace Installation

variable {trust} {i : Installation} {plan : InstallPlan}

/-- The installation with a directory for its versions. -/
structure Made (i : Installation) (d : Disk) : Prop where
  source : d.source = i.disk.source
  versions : d.target.lookup ["versions"] = some .directory
  rest : ∀ p, p ≠ ["versions"] → d.target.lookup p = i.disk.target.lookup p

/-- Nothing is left where the build goes. -/
structure Cleared (i : Installation) (plan : InstallPlan) (d : Disk) : Prop where
  source : d.source = i.disk.source
  gone : ∀ p, plan.destination <+: p → d.target.lookup p = none
  versions : ¬ plan.destination <+: ["versions"] → d.target.lookup ["versions"] = some .directory
  rest : ∀ p, ¬ plan.destination <+: p → p ≠ ["versions"] →
    d.target.lookup p = i.disk.target.lookup p

theorem createDirAll_done (hversions : ∀ e ∈ i.disk.target.lookup ["versions"], e = .directory) :
    Done (fun d => d = i.disk) (createDirAll ["versions"]) (fun _ => Made i) := by
  refine Done.bind (Q := fun _ => Made i) (Done.change fun d hd => ?_) fun _ =>
    Done.pure fun d hd => hd
  cases hlookup : i.disk.target.lookup ["versions"] with
  | none =>
    refine ⟨{ d with target := d.target.insert ["versions"] .directory }, ?_, ?_⟩
    · rw [hd, hlookup]
    · exact ⟨by rw [hd], FileTree.lookup_insert_self .., fun p hp =>
        (FileTree.lookup_insert_of_ne hp).trans (by rw [hd])⟩
  | some e =>
    obtain rfl := hversions e hlookup
    exact ⟨d, by rw [hd, hlookup], by rw [hd], by rw [hd, hlookup], fun p _ => by rw [hd]⟩

theorem clearDestination_done
    (hdestination : ∀ e ∈ i.disk.target.lookup plan.destination, e = .directory)
    (hroot : i.disk.target.lookup [] = some .directory) :
    Done (Made i) (clearDestination plan.destination) (fun _ => Cleared i plan) := by
  refine Done.of_state fun d₀ hmade => ?_
  have hlookup : d₀.target.lookup plan.destination = none ∨
      d₀.target.lookup plan.destination = some .directory := by
    by_cases hd : plan.destination = ["versions"]
    · exact .inr (hd ▸ hmade.versions)
    · rw [hmade.rest _ hd]
      cases hentry : i.disk.target.lookup plan.destination with
      | none => exact .inl rfl
      | some e => exact .inr (congrArg _ (hdestination e hentry))
  refine Done.bind (Q := fun answer d => d = d₀ ∧
    (answer = true ↔ d₀.target.lookup plan.destination = some .directory))
    (Done.probe.weaken (fun _ hd => hd) fun answer d hd => ⟨hd.1, ?_⟩) fun answer =>
      Done.assume fun hanswer => ?_
  · rw [hd.2, hd.1]
    rcases hlookup with hnone | hdirectory
    · rw [hnone]
      exact ⟨nofun, nofun⟩
    · rw [hdirectory]
      exact ⟨fun _ => rfl, fun _ => rfl⟩
  · split
    · next hyes =>
      have hdirectory := hanswer.1 hyes
      refine Done.bind (Q := fun metadata d => d = d₀ ∧ metadata = Entry.directory)
        (Done.read fun d hd => ⟨.directory, by rw [hd, hdirectory], hd, rfl⟩) fun metadata =>
          Done.assume fun hmetadata => ?_
      rw [if_pos hmetadata]
      refine (removeDirAll_done hdirectory).weaken (fun _ hd => hd) fun _ d hd => ?_
      rw [hd]
      refine ⟨hmade.source, fun p hp => FileTree.lookup_removed hp, fun hnot => ?_, fun p hp hne => ?_⟩
      · exact (FileTree.lookup_not_removed hnot).trans hmade.versions
      · exact (FileTree.lookup_not_removed hp).trans (hmade.rest p hne)
    · next hno =>
      have hnone := hlookup.resolve_right fun hdirectory => hno (hanswer.2 hdirectory)
      -- in a tree that exists, nothing is below what is not there
      have hne : plan.destination ≠ ["versions"] := by
        intro hd
        rw [hd, hmade.versions] at hnone
        cases hnone
      refine Done.pure fun d hd => ?_
      rw [hd]
      refine ⟨hmade.source, fun p hp => ?_, fun _ => hmade.versions, fun p _ => hmade.rest p⟩
      have hp' : p ≠ ["versions"] := by
        rintro rfl
        rcases destination_cases plan with hd | ⟨_, hd, rfl | rfl⟩
        · rw [hd, hmade.rest _ (by simp), hroot] at hnone
          cases hnone
        · exact hne hd
        · rw [hd] at hp
          exact absurd hp (by simp)
      rw [hmade.rest p hp']
      rw [hmade.rest _ hne] at hnone
      by_contra hsome
      by_cases hsame : plan.destination = p
      · exact hsome (hsame ▸ hnone)
      · rw [i.target_closed p hsome _ hp hsame] at hnone
        cases hnone

/-- What is left when only the destination was cleared can be launched only if an executable
outside of it could. -/
theorem Cleared.spared {d : Disk} (h : Cleared i plan d) (hlaunch : Launchable d) :
    ∃ m ∈ i.manifest?, Spared i plan m.executable ∨
      ∃ previous ∈ m.previousExecutable, Spared i plan previous := by
  have hfile : ∀ p, d.target.isFile p = true → ¬ plan.destination <+: p ∧
      i.disk.target.isFile p = true := by
    intro p hp
    have hnot : ¬ plan.destination <+: p := by
      intro hunder
      rw [FileTree.isFile, h.gone p hunder] at hp
      cases hp
    refine ⟨hnot, ?_⟩
    have hne : p ≠ ["versions"] := by
      rintro rfl
      rw [FileTree.isFile, h.versions hnot] at hp
      cases hp
    rwa [← FileTree.isFile_congr (h.rest p hnot hne)]
  have hspared : ∀ e, safeExecutable e = true → (spawn d.target e).isSome = true →
      Spared i plan e := by
    intro e hsafe hspawn
    obtain ⟨p, hp⟩ := Option.isSome_iff_exists.1 hspawn
    obtain ⟨hpath, hisFile⟩ := spawn_eq_some.1 hp
    exact ⟨hsafe, p, spawn_eq_some.2 ⟨hpath, (hfile p hisFile).2⟩, (hfile p hisFile).1⟩
  obtain ⟨m, hm, _, hsafe, hnamed⟩ := launch_isOk.1 hlaunch.2
  have hmanifest : i.manifest? = some m := by
    rw [manifest?_eq_some, FileTree.content_eq_some, ← h.rest [currentManifest] ?_ (by decide)]
    · exact FileTree.content_eq_some.1 hm
    · exact (hfile _ (FileTree.isFile_iff.2 ⟨_, FileTree.content_eq_some.1 hm⟩)).1
  refine ⟨m, hmanifest, ?_⟩
  rcases hnamed with hspawn | ⟨previous, hprevious, hprev, hspawn⟩
  · exact .inl (hspared _ hsafe hspawn)
  · exact .inr ⟨previous, hprevious, hspared _ hprev hspawn⟩

/-- Outside the destination and but for the named files, the installation is what it was. -/
def Same (i : Installation) (plan : InstallPlan) (but : List Path) (d : Disk) : Prop :=
  ∀ p, ¬ plan.destination <+: p → p ≠ ["versions"] → p ∉ but →
    d.target.lookup p = i.disk.target.lookup p

theorem moveOrCopyDirectory_done (hroot : i.disk.target.lookup [] = some .directory)
    (hsource : i.disk.source.lookup [] = some .directory) :
    Done (Cleared i plan) (moveOrCopyDirectory plan.destination)
      (fun _ d => (∀ q, d.target.lookup (plan.destination ++ q) = i.disk.source.lookup q) ∧
        Same i plan [] d) := by
  refine Done.bind (Done.attempt (Q := fun _ d =>
    (∀ q, d.target.lookup (plan.destination ++ q) = i.disk.source.lookup q) ∧ Same i plan [] d)
    (Done.change fun d hd => ?_)) fun r => ?_
  · refine ⟨{ target := d.target.graft plan.destination d.source, source := [] }, ?_, ?_, ?_⟩
    · rw [if_pos]
      refine ⟨by rw [hd.source, hsource], hd.gone _ List.prefix_rfl, ?_⟩
      rcases destination_cases plan with hnil | ⟨_, hcons, rfl | rfl⟩
      · exact .inl hnil
      · refine .inr ?_
        rw [hcons]
        exact (hd.rest [] (by simp [hcons]) (by simp)).trans hroot
      · refine .inr ?_
        rw [hcons]
        exact hd.versions (by simp [hcons])
    · intro q
      exact (FileTree.lookup_graft_append ..).trans (by rw [hd.source])
    · intro p hp hne _
      exact (FileTree.lookup_graft_of_not_under hp).trans (hd.rest p hp hne)
  · cases r with
    | ok _ => exact Done.pure fun d hd => hd.choose_spec.2
    | error _ =>
      intro w _ hd
      exact absurd hd.choose_spec.1 nofun

/-- A stable binary is advanced. -/
theorem replaceFileDurably_done {name : String} {but : List Path}
    (hhead : plan.destination.head? = some "versions") (hname : name ≠ "versions")
    (htarget : i.disk.target.isFile [name] = true) (hbut : [name] ∉ but)
    (hsource : i.disk.source.isFile [name] = true) {G : Disk → Prop}
    (hG : ∀ d c, G d → G { d with target :=
      (d.target.erase (plan.destination ++ [name])).insert [name] (.file c) }) :
    Done (fun d => (d.target.lookup (plan.destination ++ [name]) = i.disk.source.lookup [name] ∧
        G d) ∧ Same i plan but d)
      (replaceFileDurably (plan.destination ++ [name]) [name])
      (fun _ d => G d ∧ Same i plan ([name] :: but) d) := by
  have hnot : ¬ plan.destination <+: [name] := not_under_of_singleton hhead hname
  refine Done.change fun d hd => ?_
  obtain ⟨c, hc⟩ := FileTree.isFile_iff.1 hsource
  obtain ⟨c', hc'⟩ := FileTree.isFile_iff.1 htarget
  have hcontent : d.target.content (plan.destination ++ [name]) = some c := by
    rw [FileTree.content_eq_some, hd.1.1, hc]
  have hfree : d.target.lookup [name] ≠ some .directory := by
    rw [hd.2 [name] hnot (by simpa using hname) hbut, hc']
    nofun
  refine ⟨{ d with
      target := (d.target.erase (plan.destination ++ [name])).insert [name] (.file c) },
    ?_, hG d c hd.1.2, fun p hp hne hmem => ?_⟩
  · rw [hcontent]
    exact if_neg hfree
  · rw [List.mem_cons, not_or] at hmem
    rw [← hd.2 p hp hne hmem.2]
    refine (FileTree.lookup_insert_of_ne hmem.1).trans (FileTree.lookup_erase_of_ne fun heq => ?_)
    exact hp (heq ▸ List.prefix_append _ _)

/-- The new manifest takes the place of the old one. -/
theorem writeCurrentVersion_done {current : CurrentVersion} {but : List Path}
    (hsafe : safeExecutable current.executable = true)
    (hhead : plan.destination.head? = some "versions")
    (hroot : i.disk.target.lookup [] = some .directory) (hblocked : ¬ Blocked i.disk)
    (hmanifest : i.disk.target.isFile [currentManifest] = true)
    (hbut : [] ∉ but ∧ temporaryManifest ∉ but ∧ [currentManifest] ∉ but) :
    Done (Same i plan but) (writeCurrentVersion current)
      (fun _ d => d.target.content [currentManifest] = some (.manifest current) ∧
        Same i plan ([currentManifest] :: temporaryManifest :: but) d) := by
  have hnil : ¬ plan.destination <+: [] := by
    intro h
    rw [List.prefix_nil.1 h] at hhead
    cases hhead
  have htemporary : ¬ plan.destination <+: temporaryManifest :=
    not_under_of_singleton hhead (by decide)
  have hcurrent : ¬ plan.destination <+: [currentManifest] :=
    not_under_of_singleton hhead (by decide)
  have hinsert : ∀ (d : Disk) c, Same i plan but d ∨ Same i plan (temporaryManifest :: but) d →
      Same i plan (temporaryManifest :: but)
        { d with target := d.target.insert temporaryManifest (.file c) } := by
    intro d c hd p hp hne hmem
    rw [List.mem_cons, not_or] at hmem
    refine (FileTree.lookup_insert_of_ne hmem.1).trans ?_
    rcases hd with hd | hd
    · exact hd p hp hne hmem.2
    · exact hd p hp hne (by rw [List.mem_cons, not_or]; exact hmem)
  rw [writeCurrentVersion, if_pos hsafe]
  refine Done.bind (Q := fun _ => Same i plan (temporaryManifest :: but))
    (Done.change fun d hd => ?_) fun _ => ?_
  · refine ⟨_, if_neg ?_, hinsert d _ (.inl hd)⟩
    rw [hd _ htemporary (by decide) hbut.2.1]
    rintro (hdirectory | hlink | hparent)
    · exact hblocked (.inl hdirectory)
    · exact hblocked (.inr hlink)
    · exact hparent ((hd [] hnil (by decide) hbut.1).trans hroot)
  refine Done.bind (Q := fun _ d => d.target.content temporaryManifest = some (.manifest current) ∧
    Same i plan (temporaryManifest :: but) d) (Done.change fun d hd => ⟨_, rfl,
      FileTree.content_eq_some.2 (FileTree.lookup_insert_self ..), hinsert d _ (.inr hd)⟩)
    fun _ => ?_
  refine Done.bind (Q := fun _ d => d.target.content temporaryManifest = some (.manifest current) ∧
    Same i plan (temporaryManifest :: but) d) (Done.read fun d hd => ⟨(), rfl, hd⟩) fun _ => ?_
  have hmove : ∀ e, Done (fun d => d.target.content temporaryManifest = some (.manifest current) ∧
      Same i plan (temporaryManifest :: but) d) (moveFile e temporaryManifest [currentManifest])
      (fun _ d => d.target.content [currentManifest] = some (.manifest current) ∧
        Same i plan ([currentManifest] :: temporaryManifest :: but) d) := by
    intro e
    refine Done.change fun d hd => ?_
    obtain ⟨c, hc⟩ := FileTree.isFile_iff.1 hmanifest
    have hfree : d.target.lookup [currentManifest] ≠ some .directory := by
      rw [hd.2 _ hcurrent (by decide) ?_, hc]
      · intro h
        cases h
      · rw [List.mem_cons, not_or]
        exact ⟨by decide, hbut.2.2⟩
    refine ⟨_, by rw [hd.1]; exact if_neg hfree,
      FileTree.content_eq_some.2 (FileTree.lookup_insert_self ..), fun p hp hne hmem => ?_⟩
    rw [List.mem_cons, not_or] at hmem
    have hne' : p ≠ temporaryManifest := fun heq => hmem.2 (heq ▸ List.mem_cons_self)
    rw [← hd.2 p hp hne hmem.2]
    exact (FileTree.lookup_insert_of_ne hmem.1).trans (FileTree.lookup_erase_of_ne hne')
  refine Done.bind Done.probe fun answer => ?_
  split
  · exact (hmove _).weaken (fun _ hd => hd.1) fun _ _ hd => hd
  · exact (hmove _).weaken (fun _ hd => hd.1) fun _ _ hd => hd

theorem readCurrentVersion_done {m : CurrentVersion} {but : List Path}
    (hhead : plan.destination.head? = some "versions") (hm : i.manifest? = some m)
    (hversion : m.version ≠ none) (hsafe : safeExecutable m.executable = true)
    (hbut : [currentManifest] ∉ but) :
    Done (Same i plan but) (attempt readCurrentVersion)
      (fun r d => Same i plan but d ∧ r = .ok m) := by
  refine (Done.attempt (Q := fun current d => Same i plan but d ∧ current = m) ?_).weaken
    (fun _ hd => hd) fun r d ⟨current, hr, hd, hcurrent⟩ => ⟨hd, hcurrent ▸ hr⟩
  refine Done.bind (Q := fun content d => Same i plan but d ∧ content = .manifest m)
    (Done.read fun d hd => ⟨_, ?_, hd, rfl⟩) fun content => Done.assume fun hcontent => ?_
  · rw [FileTree.content_eq_some,
      hd _ (not_under_of_singleton hhead (by decide)) (by decide) hbut]
    exact FileTree.content_eq_some.1 (manifest?_eq_some.1 hm)
  · subst hcontent
    show Done _ (if m.version = none then _ else _) _
    rw [if_neg hversion, if_pos hsafe]
    exact Done.pure fun d hd => ⟨hd, rfl⟩

/-- With a rollback that is not spared, the install that nothing disturbs returns with it. -/
theorem activate_done {m : CurrentVersion} {but : List Path}
    (hhead : plan.destination.head? = some "versions")
    (hroot : i.disk.target.lookup [] = some .directory) (hblocked : ¬ Blocked i.disk)
    (hm : i.manifest? = some m) (hversion : m.version ≠ none)
    (hsafe : safeExecutable m.executable = true)
    (hsafe' : safeExecutable (versionExecutable plan.build) = true)
    (hspared : ¬ Spared i plan m.executable)
    (hbut : ∀ p ∈ but, p ≠ [] ∧ p ≠ temporaryManifest ∧ p ≠ [currentManifest] ∧
      i.disk.target.isFile p = true) :
    Done (Same i plan but) (activate plan) (fun _ d => ¬ Activated plan d) := by
  have hmanifest : i.disk.target.isFile [currentManifest] = true :=
    FileTree.isFile_iff.2 ⟨_, FileTree.content_eq_some.1 (manifest?_eq_some.1 hm)⟩
  refine Done.bind (readCurrentVersion_done hhead hm hversion hsafe fun hmem =>
    (hbut _ hmem).2.2.1 rfl) fun r => Done.assume fun hr => ?_
  subst hr
  refine Done.bind (writeCurrentVersion_done hsafe' hhead hroot hblocked hmanifest
    ⟨fun hmem => (hbut _ hmem).1 rfl, fun hmem => (hbut _ hmem).2.1 rfl,
      fun hmem => (hbut _ hmem).2.2.1 rfl⟩) fun _ => ?_
  -- the recorded rollback is not there, or inside the new version's directory
  let J : Disk → Prop := fun d =>
    d.target.content [currentManifest] = some (.manifest
      { schema := 1
        version := some plan.version
        executable := versionExecutable plan.build
        previousExecutable := some m.executable }) ∧
    ∀ p, m.executable.toPath = some p → ¬ plan.destination <+: p → d.target.isFile p = false
  refine (Done.of_spec (removeObsoleteVersions_spec (J := J) (fun _ _ => trivial) ?_)).weaken
    (P := J) ?_ ?_
  · intro d name q hcurrent hprevious hq hd
    have hhead' : q.head? = some "versions" := by
      obtain ⟨rest, rfl⟩ := hq
      rfl
    refine ⟨?_, fun p hp hnot => ?_⟩
    · rw [FileTree.content_eq_some, FileTree.lookup_erase_of_ne (ne_manifests hhead').1.symm]
      exact FileTree.content_eq_some.1 hd.1
    · by_cases hpq : p = q
      · rw [hpq, FileTree.isFile, FileTree.lookup_erase_self]
      · rw [FileTree.isFile_congr (FileTree.lookup_erase_of_ne hpq)]
        exact hd.2 p hp hnot
  · intro d hd
    refine ⟨hd.1, fun p hp hnot => ?_⟩
    have hmissing : i.disk.target.isFile p = false := by
      by_contra hfile
      exact hspared ⟨hsafe, p, spawn_eq_some.2 ⟨hp, by simpa using hfile⟩, hnot⟩
    have hmem : p ∉ [currentManifest] :: temporaryManifest :: but := by
      intro hmem
      rcases List.mem_cons.1 hmem with rfl | hmem
      · exact toPath_ne hsafe hp (by decide) rfl
      rcases List.mem_cons.1 hmem with rfl | hmem
      · exact toPath_ne hsafe hp (by decide) rfl
      · rw [(hbut p hmem).2.2.2] at hmissing
        cases hmissing
    rw [FileTree.isFile_congr (hd.2 p hnot (toPath_ne hsafe hp (by decide)) hmem)]
    exact hmissing
  · intro _ d hd hactivated
    rw [Activated, hd.1] at hactivated
    obtain ⟨p, hspawn, hnot⟩ := hactivated.2.2 _ rfl
    obtain ⟨hpath, hfile⟩ := spawn_eq_some.1 hspawn
    rw [hd.2 p hpath hnot] at hfile
    cases hfile

theorem safeExecutable_versionExecutable (hhead : plan.destination.head? = some "versions") :
    safeExecutable (versionExecutable plan.build) = true := by
  by_cases hdots : plan.build = ".."
  · rw [InstallPlan.destination, hdots] at hhead
    cases hhead
  · by_cases hdot : plan.build = "."
    · rw [hdot]
      decide
    · have hext : hasExeExtension (versionExecutable plan.build) = true := by
        show hasExeExtension
          ((.normal "versions" :: component plan.build) ++ [.normal applicationName]) = true
        rw [hasExeExtension, List.getLast?_concat]
        decide
      simp [safeExecutable, hext]
      simp [versionExecutable, component, hdot, hdots]

/-- An accepted install that does not spare the rollback is not safe. -/
theorem not_safe (h : Launchable i.disk) (hacc : i.Accepts trust plan)
    (hno : ¬ i.SparesRollback plan) : ¬ i.Safe trust plan := by
  intro hsafe
  obtain ⟨hseen, hvalue⟩ := hsafe []
  obtain ⟨m, hm, _, hsafeM⟩ := exists_manifest h
  have hroot := lookup_root h
  have hmanifest : i.disk.target.isFile [currentManifest] = true :=
    FileTree.isFile_iff.2 ⟨_, FileTree.content_eq_some.1 (manifest?_eq_some.1 hm)⟩
  have hsource := validateInstallSource_done hacc.source
  have htarget := validateInstallTarget_done hacc.target hmanifest
  by_cases hany : Spared i plan m.executable ∨
      ∃ previous ∈ m.previousExecutable, Spared i plan previous
  · -- the install returns with a rollback that is not one
    have hexecutable : ¬ Spared i plan m.executable := fun he => hno ⟨m, hm, .inl he⟩
    obtain ⟨previous, hprevious⟩ := hany.resolve_left hexecutable
    have hneither : ¬ (Blocked i.disk ∨ m.version = none) := fun hwhy =>
      hno ⟨m, hm, .inr ⟨⟨previous, hprevious⟩, hwhy⟩⟩
    rw [not_or] at hneither
    obtain ⟨p, _, hp⟩ := hprevious.2.2
    have hhead := head?_destination hp
    have hfileS : ∀ name ∈ [applicationName, launcherName, agentName],
        i.disk.source.isFile [name] = true := fun name hname => isFile_of_signed (hacc.source name hname)
    have hfileT : ∀ name ∈ [launcherName, agentName], i.disk.target.isFile [name] = true :=
      fun name hname => isFile_of_signed (hacc.target name hname)
    have hsourceRoot : i.disk.source.lookup [] = some .directory := by
      obtain ⟨c, hc⟩ := FileTree.isFile_iff.1 (hfileS launcherName (by simp))
      exact i.source_closed [launcherName] (by simp [hc]) [] List.nil_prefix (by simp)
    have hdone : Done (fun d => d = i.disk) (executeInstall trust plan)
        (fun _ d => ¬ Activated plan d) := by
      refine Done.bind hsource fun _ => Done.bind htarget fun _ => ?_
      rw [if_pos hacc.build]
      refine Done.bind (createDirAll_done hacc.versions) fun _ => ?_
      refine Done.bind (clearDestination_done hacc.destination hroot) fun _ => ?_
      refine Done.bind (moveOrCopyDirectory_done hroot hsourceRoot) fun _ => ?_
      refine Done.bind ((replaceFileDurably_done hhead (by decide) (hfileT _ (by simp)) (by simp)
        (hfileS _ (by simp)) (G := fun d =>
          d.target.lookup (plan.destination ++ [agentName]) = i.disk.source.lookup [agentName])
          fun d c hd => ?_).weaken (fun d hd => ⟨⟨hd.1 _, hd.1 _⟩, hd.2⟩) fun _ _ hd => hd)
        fun _ => ?_
      · refine (FileTree.lookup_insert_of_ne ?_).trans ((FileTree.lookup_erase_of_ne ?_).trans hd)
        · intro heq
          exact not_under_of_singleton hhead (show launcherName ≠ "versions" by decide)
            (heq ▸ List.prefix_append _ _)
        · intro heq
          exact absurd (List.append_cancel_left heq) (by decide)
      refine Done.bind ((replaceFileDurably_done hhead (by decide) (hfileT _ (by simp)) (by decide)
        (hfileS _ (by simp)) (G := fun _ => True) fun _ _ _ => trivial).weaken
          (fun d hd => ⟨⟨hd.1, trivial⟩, hd.2⟩) fun _ _ hd => hd.2) fun _ => ?_
      refine activate_done hhead hroot hneither.1 hm hneither.2 hsafeM
        (safeExecutable_versionExecutable hhead) hexecutable fun q hq => ?_
      rcases List.mem_pair.1 hq with rfl | rfl
      · exact ⟨by simp, by decide, by decide, hfileT _ (by simp)⟩
      · exact ⟨by simp, by decide, by decide, hfileT _ (by simp)⟩
    obtain ⟨_, hok, hnot⟩ := hdone { state := i.disk, fates := [], seen := [i.disk] } rfl rfl
    exact hnot (hvalue hok)
  · -- clearing the destination leaves nothing to launch
    have hpasses : Passes (fun d => d = i.disk) (executeInstall trust plan)
        (fun d => ¬ Launchable d) := by
      refine Passes.bind hsource fun _ => Passes.bind htarget fun _ => ?_
      rw [if_pos hacc.build]
      refine Passes.bind (createDirAll_done hacc.versions) fun _ => ?_
      refine Passes.bind (clearDestination_done hacc.destination hroot) fun _ => ?_
      refine Passes.here fun d hd hlaunch => ?_
      obtain ⟨m', hm', hspared⟩ := hd.spared hlaunch
      obtain rfl : m' = m := Option.some.inj (hm'.symm.trans hm)
      exact hany hspared
    obtain ⟨d, hd, hnot⟩ := hpasses { state := i.disk, fates := [], seen := [i.disk] } rfl
      (List.mem_singleton_self _) rfl
    exact hnot (hseen d hd)

/-- **The safe installs.** An install is safe exactly when it is refused before it changes anything,
or the executable that becomes the rollback is there and outside the directory it replaces; failing
that, the older rollback must be, and no rollback be recorded. -/
theorem safe_iff (trust : Content → UInt32) (i : Installation) (plan : InstallPlan)
    (h : Launchable i.disk) :
    i.Safe trust plan ↔ ¬ i.Accepts trust plan ∨ i.SparesRollback plan := by
  refine ⟨fun hsafe => ?_, safe_of_condition h⟩
  by_contra hcondition
  rw [not_or, not_not] at hcondition
  exact not_safe h hcondition.1 hcondition.2 hsafe

/-- Version 26 is current and version 25 its rollback; a payload waits. -/
def example₂₆ : Installation where
  disk :=
    { target :=
        [([], .directory), ([launcherName], .file (.data 1)), ([agentName], .file (.data 2)),
          ([currentManifest], .file (.manifest
            { schema := 1, version := some "0.1.26", executable := versionExecutable "26"
              previousExecutable := some (versionExecutable "25") })),
          (["versions"], .directory), (["versions", "25"], .directory),
          (["versions", "25", applicationName], .file (.data 3)),
          (["versions", "26"], .directory),
          (["versions", "26", applicationName], .file (.data 4))]
      source :=
        [([], .directory), ([applicationName], .file (.data 5)), ([launcherName], .file (.data 6)),
          ([agentName], .file (.data 7))] }
  target_closed := FileTree.closed_of_mem (by decide)
  source_closed := FileTree.closed_of_mem (by decide)

/-- Installing 27 over 26 is safe. -/
theorem safe_new_build : example₂₆.Safe (fun _ => 0) { version := "0.1.27", build := "27" } :=
  (safe_iff _ _ _ (by decide)).2 (.inr ⟨_, rfl, .inl (by decide)⟩)

/-- Installing 26 again succeeds and records version 26 as its own rollback. -/
theorem current_build_reinstalled :
    ¬ ∀ (trust : Content → UInt32) (i : Installation) (plan : InstallPlan), Launchable i.disk →
      i.Safe trust plan := by
  intro h
  have hactivated := (h (fun _ => 0) example₂₆ { version := "0.1.26", build := "26" }
    (by decide) []).2 (by decide +kernel)
  revert hactivated
  decide +kernel

end Installation

end Superiority.Updater
