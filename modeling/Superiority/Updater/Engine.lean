import Superiority.Library.Run
import Superiority.Library.Stateful
import Superiority.Updater.CachePaths

/-!
# The update engine

The worker takes commands one after the other. What becomes of the calls that it makes while it
handles a command (to the network, the disk and the agent) is decided outside, so a command comes
with its outcomes; the flag that the client sets to cancel is seen as an outcome `cancelled`. What
the worker does is written to a trace.
-/

namespace Superiority.Updater

open Stateful

/-! ## What the worker says and does -/

/-- A fraction of the whole. -/
structure Progress where
  completed : Nat
  total : Nat
  deriving DecidableEq

/-- `Event`. The message of an error is the text of the error. -/
inductive Event where
  | checking
  | available (version title notes notesFormat : String) (size : UInt64)
  | downloading (progress : Progress)
  | extracting (progress : Progress)
  | ready
  | installing
  | installed
  | notFound (message : String)
  | error (error : Error)
  | dismissed
  | focus
  | quitRequested
  deriving DecidableEq

inductive Command where
  | check
  | primaryAction
  | dismiss
  | shutdown
  deriving DecidableEq

structure PreparedUpdate where
  release : Release
  archivePath : LexicalPath
  stagingDirectory : LexicalPath
  installSource : LexicalPath
  deriving DecidableEq

inductive State where
  | idle
  | available (release : Release)
  | ready (prepared : PreparedUpdate)
  | installing
  deriving DecidableEq

inductive Happening where
  | command (command : Command)
  | event (event : Event)
  /-- `verify_artifact` accepted the archive. -/
  | verified (artifact : Artifact) (archive : LexicalPath)
  /-- `validate_install_source` accepted the source. -/
  | validated (source : LexicalPath)
  /-- It refused the source that is in this staging directory. -/
  | rejected (staging : LexicalPath)
  | staged (directory : LexicalPath)
  | removed (directory : LexicalPath)
  /-- `remove_directory_if_owned` was called and the directory is still there. -/
  | remains (directory : LexicalPath)
  /-- `launch_agent` was called. -/
  | launching (prepared : PreparedUpdate)
  /-- `launch_agent` succeeded. -/
  | launched (prepared : PreparedUpdate)
  deriving DecidableEq

abbrev Trace := List Happening

abbrev Engine (α : Type) := Stateful Trace Error α

def note (h : Happening) : Engine Unit := change (· ++ [h])

def send (event : Event) : Engine Unit := note (.event event)

/-! ## Outcomes -/

/-- How far `extract` came. -/
inductive Extraction where
  | unstaged (error : Error)
  | failed (error : Error)
  | done (source : LexicalPath)

structure Preparation where
  createDownloads : Except Error Unit
  createStaging : Except Error Unit
  isFile : Bool
  verifyCached : Except Error Unit
  archiveExists : Bool
  removeArchive : Except Error Unit
  downloadProgress : List Progress
  download : Except Error Unit
  verify : Except Error Unit
  random : Vector UInt8 12
  extractProgress : List Progress
  extract : Extraction
  /-- `fs::remove_dir_all` of the staging directory removes it. -/
  removes : Bool
  validate : Except Error Unit

/-- The calls of `launch_agent` in order, the last giving the agent's status line. -/
structure Launch where
  createSessions : Except Error Unit
  createSession : Except Error Unit
  copyAgent : Except Error Unit
  setPermissions : Except Error Unit
  writePlan : Except Error Unit
  spawn : Except Error Unit
  takeStdout : Except Error Unit
  readLine : Except Error String

structure Outcomes where
  fetch : Except Error Document
  preparation : Preparation
  launch : Launch
  /-- `fs::remove_dir_all` of a dismissed update's staging directory removes it. -/
  removes : Bool

structure Config where
  reader : FeedReader
  cache : CacheDirectory
  currentVersion : String
  currentBuild : String
  systemVersion : Option String

/-! ## The worker -/

variable (config : Config)

def checkForUpdate (fetch : Except Error Document) : Except Error (Option Release) := do
  let xml ← fetch
  let appcast ← Appcast.parse config.reader xml config.cache.platform
  return latestNewerThan appcast config.currentBuild config.systemVersion

def verifyArtifact (artifact : Artifact) (path : LexicalPath) (outcome : Except Error Unit) :
    Engine Unit := do
  ofExcept outcome
  note (.verified artifact path)

/-- `remove_directory_if_owned`. A failure is ignored. -/
def removeIfOwned (directory : LexicalPath) (removes : Bool) : Engine Unit :=
  if (config.cache.removeDirectoryIfOwned directory).isSome && removes then
    note (.removed directory)
  else note (.remains directory)

def extract (staging : LexicalPath) (progress : List Progress) (outcome : Extraction) :
    Engine LexicalPath :=
  match outcome with
  | .unstaged error => fail error
  | .failed error => do
    note (.staged staging)
    each (fun p => send (.extracting p)) progress
    fail error
  | .done source => do
    note (.staged staging)
    each (fun p => send (.extracting p)) progress
    pure source

/-- The archive is there and verified. -/
def cachedIsValid (release : Release) (archivePath : LexicalPath) (o : Preparation) :
    Engine Bool := do
  if o.isFile then
    let verified ← attempt (verifyArtifact release.artifact archivePath o.verifyCached)
    pure verified.isOk
  else pure false

def downloadArchive (release : Release) (archivePath : LexicalPath) (o : Preparation) :
    Engine Unit := do
  ofExcept (if o.archiveExists then o.removeArchive else .ok ())
  each (fun p => send (.downloading p)) o.downloadProgress
  ofExcept o.download
  verifyArtifact release.artifact archivePath o.verify

def fetchArchive (release : Release) (archivePath : LexicalPath) (o : Preparation) :
    Engine Unit := do
  if ← cachedIsValid release archivePath o then send (.downloading ⟨1, 1⟩)
  else downloadArchive release archivePath o

def validateSource (staging source : LexicalPath) (outcome : Except Error Unit) : Engine Unit :=
  match outcome with
  | .ok () => note (.validated source)
  | .error error => do
    note (.rejected staging)
    fail error

def prepareUpdate (release : Release) (o : Preparation) : Engine PreparedUpdate := do
  ofExcept o.createDownloads
  ofExcept o.createStaging
  let archivePath := config.cache.archivePath release
  fetchArchive release archivePath o
  let stagingDirectory := config.cache.stagingDirectory release o.random
  match ← attempt (extract stagingDirectory o.extractProgress o.extract) with
  | .error error => do
    removeIfOwned config stagingDirectory o.removes
    fail error
  | .ok installSource => do
    validateSource stagingDirectory installSource o.validate
    pure { release, archivePath, stagingDirectory, installSource }

/-- `text.strip_prefix(…)`. -/
def withoutFront (front text : String) : Option String :=
  if front.toList <+: text.toList then some (String.ofList (text.toList.drop front.length)) else none

def launchAgent (prepared : PreparedUpdate) (o : Launch) : Engine Unit := do
  note (.launching prepared)
  ofExcept o.createSessions
  ofExcept o.createSession
  ofExcept o.copyAgent
  ofExcept o.setPermissions
  ofExcept o.writePlan
  ofExcept o.spawn
  ofExcept o.takeStdout
  let status ← ofExcept o.readLine
  if trim status = "READY" then note (.launched prepared)
  else fail (.installation ((withoutFront "ERROR:" (trim status)).getD
    "the updater agent did not become ready"))

def Release.announcement (release : Release) : Event :=
  .available release.version release.title release.notes release.notesFormat
    release.artifact.contentLength

structure Worker where
  state : State := .idle
  running : Bool := true
  trace : Trace := []

def Worker.become (w : Worker) (state : State) (trace : Trace) : Worker := { w with state, trace }

def handleCheck (w : Worker) (o : Outcomes) : Worker :=
  match w.state with
  | .idle =>
    let trace := w.trace ++ [.event .checking]
    match checkForUpdate config o.fetch with
    | .ok (some release) => w.become (.available release) (trace ++ [.event release.announcement])
    | .ok none => w.become w.state (trace ++ [.event (.notFound
        ("Superiority " ++ config.currentVersion ++ " is the newest available version."))])
    | .error .cancelled => w.become w.state (trace ++ [.event .dismissed])
    | .error error => w.become w.state (trace ++ [.event (.error error)])
  | _ => w.become w.state (w.trace ++ [.event .focus])

/-- `Command::PrimaryAction` when a release is offered. -/
def handlePrepare (w : Worker) (release : Release) (o : Outcomes) : Worker :=
  match prepareUpdate config release o.preparation w.trace with
  | (.ok prepared, trace) => w.become (.ready prepared) (trace ++ [.event .ready])
  | (.error .cancelled, trace) => w.become .idle (trace ++ [.event .dismissed])
  | (.error error, trace) => w.become .idle (trace ++ [.event (.error error)])

/-- `Command::PrimaryAction` when an update is ready. -/
def handleLaunch (w : Worker) (prepared : PreparedUpdate) (o : Outcomes) : Worker :=
  match launchAgent prepared o.launch w.trace with
  | (.ok (), trace) =>
    w.become .installing (trace ++ [.event .installing, .event .quitRequested])
  | (.error error, trace) => w.become w.state (trace ++ [.event (.error error)])

def handleDismiss (w : Worker) (o : Outcomes) : Worker :=
  let trace := match w.state with
    | .ready prepared => (removeIfOwned config prepared.stagingDirectory o.removes w.trace).2
    | _ => w.trace
  w.become .idle (trace ++ [.event .dismissed])

def handlePrimaryAction (w : Worker) (o : Outcomes) : Worker :=
  match w.state with
  | .available release => handlePrepare config w release o
  | .ready prepared => handleLaunch w prepared o
  | .idle => w.become w.state
      (w.trace ++ [.event (.error (.invalidState "no update has been selected"))])
  | .installing => w.become w.state (w.trace ++ [.event .focus])

/-- One round of `run`. -/
def handle (w : Worker) (command : Command) (o : Outcomes) : Worker :=
  match command with
  | .shutdown => { w with running := false }
  | .dismiss => handleDismiss config w o
  | .check => handleCheck config w o
  | .primaryAction => handlePrimaryAction config w o

/-- After a shutdown no command is taken. -/
def Worker.step (w : Worker) (input : Command × Outcomes) : Worker :=
  if w.running then
    handle config { w with trace := w.trace ++ [.command input.1] } input.1 input.2
  else w

end Superiority.Updater
