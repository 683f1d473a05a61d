import Marginalia.Command.Build
import Marginalia.Command.Extract
import Marginalia.Command.Watch
import Std.Time.DateTime.Timestamp

/-!
# The program

The commands on the disk of the machine, each by its word: `extract`, `build` and
`watch`. What a command looks at is loaded first, the command runs on that, and
the files that differ afterwards are written. While it watches, the program looks
at the disk once a second and takes a file that is new or has changed for an
event, until it is interrupted.
-/

namespace Marginalia.Machine

/-! ## Loading -/

/-- The writing of a location. -/
def writing (location : Location) : String := String.ofList ('/' :: Text.joinWith '/' location)

/-- A time of the machine in microseconds. -/
def microseconds (time : IO.FS.SystemTime) : Int := time.sec * 1000000 + time.nsec.toNat / 1000

/-- What is at a location, and below it if all of it is asked for. Nothing is at a
    location that cannot be looked at. -/
partial def load (all : Bool) (location : Location) : IO (List (Location × Disk.Entry)) := do
  try
    let place ← IO.FS.realPath (writing location)
    let facts ← place.metadata
    match facts.type with
    | .dir =>
      let found ← if all then place.readDir else pure #[]
      let below ← found.toList.mapM fun entry => load all (location ++ [entry.fileName.toList])
      return (location, .directory) :: below.flatten
    | .file =>
      let content ← IO.FS.readBinFile place
      return [(location, .file content (microseconds facts.modified))]
    | _ => return []
  catch _ => return []

/-- The beginnings of a list of names, the shortest first. -/
def beginnings (names : List Text) : List (List Text) :=
  (List.range (names.length + 1)).map (names.take ·)

/-- The disk with what is loaded added to it. -/
def add (disk : Disk) (loaded : List (Location × Disk.Entry)) : Disk :=
  loaded.foldl (fun disk (location, entry) =>
    if location.isEmpty then disk else disk.put location entry) disk

/-- The disk of the machine as far as the paths lead, with all that is below them
    if it is asked for. -/
def disk (all : Bool) (paths : List Path) : IO Disk := do
  let working := (Path.ofText (← IO.currentDir).toString.toList).parts
  let now := (← Std.Time.Timestamp.now).toNanosecondsSinceUnixEpoch.val / 1000
  let mut disk : Disk := { working, now, entries := [] }
  for location in beginnings working do
    disk := add disk (← load false location)
  for path in paths do
    for parts in beginnings path.parts do
      disk := add disk (← load false (parts.foldl Disk.stepTo (disk.startOf path)))
    if all then disk := add disk (← load true (disk.resolve path))
  return disk

/-! ## Saving -/

/-- Whether a file must be written that was like the first entry. -/
def differs : Option Disk.Entry → ByteArray → Bool
  | some (.file content _), new => content != new
  | _, _ => true

/-- Writes what a disk holds now and did not before, and deletes what it held. -/
def save (before after : Disk) : IO Unit := do
  for (location, entry) in after.entries.reverse do
    match entry with
    | .directory => IO.FS.createDirAll (writing location)
    | .file content _ =>
      if differs (before.get? location) content then
        IO.FS.writeBinFile (writing location) content
  for (location, _) in before.entries do
    if (after.get? location).isNone then IO.FS.removeFile (writing location)

/-! ## Commands -/

/-- The environment variables that settings are read from. -/
def environment : IO Settings.Environment := do
  let known : List Settings.Variable :=
    [.contentDir, .outputDir, .environment, .imageUrl, .repositoryUrl, .concurrency]
  let values ← known.mapM fun v => return (v.name.toList, ← IO.getEnv v.name)
  return values.filterMap fun (name, value) => value.map (name, ·.toList)

/-- Writes lines of the log. -/
def writeLog (log : List Command.LogLine) : IO Unit :=
  log.forM fun line => IO.eprintln line.text

/-- Prints what a command leaves behind, and ends with its status. -/
def conclude (result : Command.Result) : IO UInt32 := do
  writeLog result.log
  IO.print (String.ofList result.output)
  match result.ending with
  | .status code => return code.toUInt32
  | .refused refusal =>
    IO.eprintln refusal.message
    return refusal.status.toUInt32
  | .valueless name =>
    IO.eprintln (Command.Refusal.valueMissing name.toList).message
    return 1
  | .failed failure =>
    IO.eprintln (Command.describeFailure failure)
    return 1

/-- Extracts a source file. -/
def extract (argv : List Text) : IO UInt32 := do
  conclude (Command.Extract.run Encoding.byMark (← disk false (Command.Extract.places argv)) argv)

/-- Builds the site. -/
def build (argv : List Text) : IO UInt32 := do
  let env ← environment
  let start ← IO.monoMsNow
  let before ← disk true (Command.Build.places env argv)
  let (outcome, after) := Command.Build.run env Encoding.byMark argv before
  save before after
  conclude (outcome.result ((← IO.monoMsNow) - start))

/-- The files that are new or have changed, as events. -/
def changes (before after : Disk) : List Watch.Event :=
  after.entries.filterMap fun (location, entry) =>
    match entry, before.get? location with
    | .file content modified, some (.file content' modified') =>
      if modified == modified' && content == content' then none
      else some ⟨.modified, (writing location).toList, none, false⟩
    | .file _ _, _ => some ⟨.created, (writing location).toList, none, false⟩
    | .directory, _ => none

/-- How long the program waits between two looks at the disk, in milliseconds. -/
def interval : Nat := 1000

/-- Goes on watching, after the disk was last seen as `seen`. -/
partial def follow (paths : List Path) (session : Command.Watch.Session) (seen : Disk) :
    IO UInt32 := do
  writeLog session.log
  IO.sleep interval.toUInt32
  let before ← disk true paths
  let touched := (changes seen before).foldl (·.dispatch before ·) { session with log := [] }
  let (session, after) := (touched.advance interval).endRound before
  save before after
  follow paths session before

/-- Builds the site and watches its content. -/
def watch (argv : List Text) : IO UInt32 := do
  let env ← environment
  let paths := Command.Watch.places env argv
  let before ← disk true paths
  let (start, after) := Command.Watch.start env Encoding.byMark argv before
  save before after
  match start with
  | .ended result => conclude result
  | .watching session => follow paths session before

end Marginalia.Machine

open Marginalia in
/-- Runs the command that the first argument names. -/
def main (argv : List String) : IO UInt32 := do
  match argv with
  | "extract" :: rest => Machine.extract (rest.map (·.toList))
  | "build" :: rest => Machine.build (rest.map (·.toList))
  | "watch" :: rest => Machine.watch (rest.map (·.toList))
  | _ =>
    IO.eprintln "usage: marginalia (extract | build | watch) ..."
    return 2
