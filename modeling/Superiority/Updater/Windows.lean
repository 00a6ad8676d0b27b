import Superiority.Error
import Superiority.Library.Crash
import Superiority.Library.Files

/-!
# The Windows installer and launcher

`executeInstall` puts a prepared payload into `versions/<build>`, advances the launcher and the agent,
switches `current.json` and removes what is obsolete. `launch` is what the launcher does with the
result.

The disk is two trees, that of the installation and that of the payload, which the engine extracts
into a directory of its own. A renaming is one call; the removal and the copying of a directory are
a call for each entry.
-/

namespace Superiority.Updater

open Program

def currentManifest : String := "current.json"
def launcherName : String := "Superiority.exe"
def applicationName : String := "superiority-app.exe"
def agentName : String := "superiority-updater-agent.exe"

/-! ## Paths and manifests -/

/-- `std::path::Component`, with everything but a name in one case. -/
inductive Component where
  | normal (name : String)
  | other
  deriving DecidableEq, Repr

/-- The name of a normal component. -/
def Component.name? : Component → Option String
  | normal name => some name
  | other => none

/-- A relative path by its components, which leave out `.` after the first place. -/
abbrev PathBuf := List Component

def component (name : String) : PathBuf :=
  if name = "." then [] else if name = ".." then [.other] else [.normal name]

/-- Windows resolves `.` and `..` by the text of the path. -/
def resolve (names : List String) : Path :=
  names.foldl (fun p name => if name = "." then p else if name = ".." then p.dropLast
    else p ++ [name]) []

def PathBuf.toPath (path : PathBuf) : Option Path :=
  path.mapM fun
    | .normal name => some name
    | .other => none

/-- `path.extension() == Some("exe")`. -/
def hasExeExtension (path : PathBuf) : Bool :=
  match path.getLast? with
  | some (.normal name) => name.toList.length > 4 && ".exe".toList.isSuffixOf name.toList
  | _ => false

structure CurrentVersion where
  schema : UInt32
  /-- The updater needs it, the launcher does not. -/
  version : Option String
  executable : PathBuf
  previousExecutable : Option PathBuf
  deriving DecidableEq

/-- What a file holds: a manifest, anything else, or a part of what is being written. -/
inductive Content where
  | manifest (current : CurrentVersion)
  | data (bytes : Nat)
  | incomplete
  deriving DecidableEq

structure Disk where
  target : FileTree Content
  source : FileTree Content
  deriving DecidableEq

/-- One of the two trees. -/
inductive Side where
  | target
  | source
  deriving DecidableEq

def Disk.tree (d : Disk) : Side → FileTree Content
  | .target => d.target
  | .source => d.source

def Disk.withTree (d : Disk) (f : FileTree Content) : Side → Disk
  | .target => { d with target := f }
  | .source => { d with source := f }

structure InstallPlan where
  version : String
  build : String

abbrev Install (α : Type) := Program Error Disk α

/-- `validate_relative_executable`, also the launcher's `validate` but for the message. -/
def safeExecutable (path : PathBuf) : Bool :=
  path.all (fun c => c ≠ .other) && hasExeExtension path

def safeVersionComponent (version : String) : Bool :=
  version.toList ≠ [] && version.toList.all fun c =>
    c.isAlphanum || c = '.' || c = '-' || c = '_'

/-! ## Calls -/

def isFile (side : Side) (path : Path) : Install Bool :=
  probe (.io path) fun d => (d.tree side).isFile path

/-- The tests of a validation, up to the first that fails. -/
def areFiles (side : Side) : List String → Install Bool
  | [] => pure true
  | name :: names => do
    if ← isFile side [name] then areFiles side names else pure false

/-- `path.exists()` of the installation. A link is taken for one that leads nowhere. -/
def pathExists (path : Path) : Install Bool :=
  probe (.io path) fun d => match d.target.lookup path with
    | some .directory => true
    | some (.file _) => true
    | _ => false

/-- `fs::create_dir_all`. -/
def createDirAll (path : Path) : Install Unit :=
  each (fun p => change (.io path) fun d => match d.target.lookup p with
    | some .directory => some d
    | none => some { d with target := d.target.insert p .directory }
    | _ => none) (path.inits.filter (· ≠ []))

/-- `fs::remove_dir_all`: everything below goes first. -/
def removeDirAll (side : Side) (path : Path) : Install Unit := do
  let order ← read (.io path) fun d => match (d.tree side).lookup path with
    | some .directory => some ((d.tree side).removalOrder path)
    | some .link => some [path]
    | _ => none
  each (fun p => change (.io path) fun d => some (d.withTree ((d.tree side).erase p) side)) order

/-- `MoveFileExW` of a file, replacing what is there. -/
def moveFile (error : Error) (source destination : Path) : Install Unit :=
  change error fun d => match d.target.content source with
    | none => none
    | some content =>
      if d.target.lookup destination = some .directory then none
      else some { d with target := (d.target.erase source).insert destination (.file content) }

/-- `fs::rename` of the payload, to where nothing is. -/
def renamePayload (destination : Path) : Install Unit :=
  change (.io []) fun d =>
    if d.source.lookup [] = some .directory ∧ d.target.lookup destination = none ∧
        (destination = [] ∨ d.target.lookup destination.dropLast = some .directory) then
      some { target := d.target.graft destination d.source, source := [] }
    else none

/-- `File::create` and `fs::copy` first make the file empty. -/
def createFile (path : Path) : Install Unit :=
  change (.io path) fun d =>
    if d.target.lookup path = some .directory ∨ d.target.lookup path = some .link ∨
        d.target.lookup path.dropLast ≠ some .directory then none
    else some { d with target := d.target.insert path (.file .incomplete) }

def writeFile (path : Path) (content : Content) : Install Unit :=
  change (.io path) fun d =>
    some { d with target := d.target.insert path (.file content) }

/-! ## The installer -/

variable (trust : Content → UInt32)

/-- The status as eight hexadecimal digits. -/
def hexStatus (status : UInt32) : String :=
  let digits := Nat.toDigits 16 status.toNat
  String.ofList (List.replicate (8 - digits.length) '0' ++ digits)

/-- `verify_authenticode`; the verdict is the operating system's. -/
def verifyAuthenticode (side : Side) (path : Path) : Install Unit := do
  let status ← read (.io path) fun d => ((d.tree side).content path).map trust
  if status = 0 then pure ()
  else fail (.invalidArtifact ("\\".intercalate path ++
    " does not have a valid Authenticode signature (0x" ++ hexStatus status ++ ")"))

def validateInstallSource : Install Unit := do
  if ← areFiles .source [applicationName, launcherName, agentName] then
    verifyAuthenticode trust .source [applicationName]
    verifyAuthenticode trust .source [launcherName]
    verifyAuthenticode trust .source [agentName]
  else fail (.invalidArtifact
    "Windows update is missing its application, launcher, or updater agent")

def validateInstallTarget : Install Unit := do
  if ← areFiles .target [launcherName, agentName, currentManifest] then
    verifyAuthenticode trust .target [launcherName]
    verifyAuthenticode trust .target [agentName]
  else fail (.installation ("the Windows installation is missing its launcher, updater agent, " ++
    "or current-version manifest"))

/-- What is at the destination goes. -/
def clearDestination (destination : Path) : Install Unit := do
  if ← pathExists destination then
    let metadata ← read (.io destination) fun d => d.target.lookup destination
    if metadata = .directory then removeDirAll .target destination
    else fail (.installation "existing version destination is unsafe")
  else pure ()

/-- One entry of the payload is copied. -/
def copyEntry (destination : Path) (entry : Path × Entry Content) : Install Unit := do
  read (.installation "walk") fun _ => some ()
  match entry.2 with
  | .link => fail (.invalidArtifact "Windows payload contains a symbolic link")
  | .directory => createDirAll (destination ++ entry.1)
  | .file content =>
    createFile (destination ++ entry.1)
    writeFile (destination ++ entry.1) content

def moveOrCopyDirectory (destination : Path) : Install Unit := do
  match ← attempt (renamePayload destination) with
  | .ok _ => pure ()
  | .error _ =>
    let entries ← read (.installation "walk") fun d => some d.source.walk
    each (copyEntry destination) entries
    removeDirAll .source []

def replaceFileDurably (source destination : Path) : Install Unit :=
  moveFile (.installation ("replace stable update component " ++ "\\".intercalate destination))
    source destination

def readCurrentVersion : Install CurrentVersion := do
  let content ← read (.io [currentManifest]) fun d => d.target.content [currentManifest]
  match content with
  | .manifest current =>
    if current.version = none then fail (.serialization "missing field version")
    else if safeExecutable current.executable then pure current
    else fail (.installation "current-version executable path is unsafe")
  | _ => fail (.serialization "expected value")

def temporaryManifest : Path := ["current.json.new"]

def writeCurrentVersion (current : CurrentVersion) : Install Unit := do
  if safeExecutable current.executable then
    createFile temporaryManifest
    writeFile temporaryManifest (.manifest current)
    -- `sync_all`
    read (.io temporaryManifest) fun _ => some ()
    if ← pathExists [currentManifest] then
      moveFile (.installation "activate update") temporaryManifest [currentManifest]
    else moveFile (.io [currentManifest]) temporaryManifest [currentManifest]
  else fail (.installation "current-version executable path is unsafe")

/-- The name of the version directory that an executable is in. -/
def keep (executable : PathBuf) : Option String :=
  match executable.getD 1 .other with
  | .normal name => some name
  | .other => none

/-- Failures are ignored here. -/
def removeObsoleteVersions (current : PathBuf) (previous : Option PathBuf) : Install Unit := do
  match ← attempt (read (.io ["versions"]) fun d => some (d.target.names ["versions"])) with
  | .error _ => pure ()
  | .ok names =>
    each (fun name =>
      if some name ≠ keep current ∧ some name ≠ previous.bind keep then do
        let _ ← attempt (removeDirAll .target ["versions", name])
        pure ()
      else pure ()) names

def versionExecutable (build : String) : PathBuf :=
  .normal "versions" :: (component build ++ [.normal applicationName])

/-- From here on the new version is in place and its launcher and agent are the stable ones. -/
def activate (plan : InstallPlan) : Install Unit := do
  let previous ← attempt readCurrentVersion
  let manifest : CurrentVersion :=
    { schema := 1
      version := some plan.version
      executable := versionExecutable plan.build
      previousExecutable := previous.toOption.map (·.executable) }
  writeCurrentVersion manifest
  removeObsoleteVersions manifest.executable manifest.previousExecutable

def executeInstall (plan : InstallPlan) : Install Unit := do
  validateInstallSource trust
  validateInstallTarget trust
  if safeVersionComponent plan.build then
    createDirAll ["versions"]
    let destination := resolve ["versions", plan.build]
    clearDestination destination
    moveOrCopyDirectory destination
    replaceFileDurably (destination ++ [launcherName]) [launcherName]
    replaceFileDurably (destination ++ [agentName]) [agentName]
    activate plan
  else fail (.installation "update build identifier is unsafe")

/-! ## The launcher -/

/-- The executable that a safe path leads to, if it is there. -/
def spawn (target : FileTree Content) (path : PathBuf) : Option Path :=
  path.toPath.filter fun p => target.isFile p

/-- `launch`, with the executable it starts. -/
def launch (target : FileTree Content) : Except Error Path :=
  match target.content [currentManifest] with
  | none => .error (.io [currentManifest])
  | some (.manifest manifest) =>
    if manifest.schema ≠ 1 then
      .error (.installation "the active-version manifest schema is unsupported")
    else if ! safeExecutable manifest.executable then
      .error (.installation "the active executable path is unsafe")
    else match spawn target manifest.executable with
    | some path => .ok path
    | none => match manifest.previousExecutable with
      | none => .error
        (.installation "the active application failed to launch and no rollback is available")
      | some previous =>
        if ! safeExecutable previous then
          .error (.installation "the active executable path is unsafe")
        else match spawn target previous with
        | some path => .ok path
        | none => .error (.installation "rollback launch")
  | some _ => .error (.serialization "expected value")

end Superiority.Updater
