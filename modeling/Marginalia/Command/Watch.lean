import Marginalia.Command.Basic
import Marginalia.Decimal.Rounding
import Marginalia.Watch.Watcher

/-!
# The command that watches

Publishes a site, then rebuilds the projects whose content changes until it is
interrupted. It goes on in rounds: events and the passing of time make projects
due, and at the end of a round the projects that are due are rebuilt in turn. A
rebuild that fails is told in the log if the project is to blame, and changes
nothing else.
-/

namespace Marginalia.Command.Watch

/-- The options of the command. -/
def flags : List Flag := directoryFlags ++ [⟨"--debounce".toList, .number, false⟩]

/-- How long the content of a project must be left alone, in seconds, where no
    option says so. -/
def standardDebounce : Quantity := .finite ⟨false, 5, -1⟩

/-- How long arguments ask to leave content alone. -/
def debounceIn? (arguments : Arguments) : Option Quantity :=
  match arguments.last? "--debounce" with
  | none => some standardDebounce
  | some value => value.bind Quantity.read?

/-- The paths that the command looks at. -/
def places (env : Settings.Environment) (argv : List Text) : List Path :=
  match readArguments flags argv, Settings.ofEnvironment env with
  | .ok arguments, .ok settings => (withDirectories arguments settings).places
  | _, _ => []

/-- The command while it watches. -/
structure Session where
  site : Site
  /-- The limits within which the site is published. -/
  limits : Site.Limits
  watcher : Watch.Watcher
  /-- Whether any time is long enough for a project to be due. -/
  fires : Bool
  /-- The projects that are due, in order. -/
  queue : List Text
  log : List LogLine

/-- What came of starting the command. -/
inductive Start
  | ended (result : Result)
  | watching (session : Session)

/-- The start with a watcher, after a build. -/
def startWatching (site : Site) (limits : Site.Limits) (debounce : Quantity)
    (report : Site.Report) (disk : Disk) : Start :=
  let content := site.settings.contentDir
  let built : LogLine := ⟨.info, "Initial build: " ++ toString report.built ++ " built, " ++
    toString report.problems.length ++ " errors"⟩
  let delay := debounce.milliseconds?
  match Watch.Watcher.start { content, delay := delay.getD 0 } disk with
  | .error (.noContent _) => .ended { ending := .status 2, log := [built] }
  | .error (.disk e) => .ended { ending := .failed (.disk e), log := [built] }
  | .ok watcher => .watching {
      site, limits, watcher
      fires := delay.isSome
      queue := []
      log := [built, ⟨.info, "Watching " ++ String.ofList content.text ++ " (debounce " ++
        String.ofList debounce.text ++ "s)"⟩] }

/-- Starts to watch a site, after it is built. -/
def startOn (site : Site) (limits : Site.Limits) (debounce : Quantity) (disk : Disk) :
    Start × Disk :=
  match disk.isDirectory site.settings.contentDir with
  | .error e => (.ended { ending := .failed (.disk e) }, disk)
  | .ok false =>
    (.ended {
      ending := .status 2
      log := [⟨.error, "content-dir must exist and be a directory: " ++
        String.ofList site.settings.contentDir.text⟩] }, disk)
  | .ok true =>
    match site.build limits disk with
    | .ok report disk => (startWatching site limits debounce report disk, disk)
    | .error failure disk => (.ended { ending := .failed failure }, disk)

/-- Starts the command on a disk. -/
def start (env : Settings.Environment) (detect : Encoding.Detector) (argv : List Text)
    (disk : Disk) (limits : Site.Limits := .standard) : Start × Disk :=
  match readArguments flags argv with
  | .error refusal => (.ended (.refused refusal), disk)
  | .ok arguments =>
    match Settings.ofEnvironment env with
    | .error unfit => (.ended (.misconfigured unfit), disk)
    | .ok settings =>
      match debounceIn? arguments with
      | none => (.ended { ending := .valueless "--debounce" }, disk)
      | some debounce => startOn ⟨withDirectories arguments settings, detect⟩ limits debounce disk

namespace Session

/-- Takes in an event. -/
def dispatch (s : Session) (disk : Disk) (event : Watch.Event) : Session :=
  if s.fires then { s with watcher := s.watcher.dispatch disk event } else s

/-- Lets time pass. -/
def advance (s : Session) (milliseconds : Nat) : Session :=
  let (due, watcher) := s.watcher.advance milliseconds
  { s with watcher, queue := s.queue ++ due }

/-- What is logged of a rebuild. -/
def logOf : EStateM.Result Site.Failure Disk Page → List LogLine
  | .ok page _ => [⟨.info, "Rebuilt " ++ String.ofList page.project.id ++ " (" ++
      toString page.files.length ++ " source files)"⟩]
  | .error failure _ =>
    match failure.report? with
    | some report => [⟨.error, "Rebuild failed: " ++ report⟩]
    | none => []

/-- The disk that a rebuild leaves. -/
def diskOf : EStateM.Result Site.Failure Disk Page → Disk
  | .ok _ disk => disk
  | .error _ disk => disk

/-- Rebuilds projects in turn. -/
def rebuildAll (site : Site) (limits : Site.Limits) (disk : Disk) :
    List Text → List LogLine × Disk
  | [] => ([], disk)
  | id :: rest =>
    let result := site.rebuild limits id disk
    let (log, final) := rebuildAll site limits (diskOf result) rest
    (logOf result ++ log, final)

/-- Ends a round: rebuilds the projects that are due. -/
def endRound (s : Session) (disk : Disk) : Session × Disk :=
  let (log, disk) := rebuildAll s.site s.limits disk s.queue
  ({ s with queue := [], log := s.log ++ log }, disk)

/-- Ends the command, as it is interrupted. -/
def interrupt (s : Session) : Result where
  ending := .status 0
  log := s.log ++ [⟨.info, "Watcher stopped cleanly"⟩, ⟨.info, "Shutdown requested"⟩]

end Session

end Marginalia.Command.Watch
