import Marginalia.Watch.Debounce
import Marginalia.Watch.Event

/-!
# Watching content

A watcher of a content directory. While it runs, changes start the timers of
their projects; the projects that come due are to be rebuilt. It starts only if
the content directory is there, and stopping it stops the timers. What becomes of
a rebuild is nothing to it.
-/

namespace Marginalia.Watch

/-- A watcher. -/
structure Watcher where
  /-- The content directory. -/
  content : Path
  /-- How long the content of a project must be left alone, in milliseconds. -/
  delay : Int
  running : Bool := false
  debounce : Debounce := {}
  deriving DecidableEq, Repr

/-- Why a watcher does not start. -/
inductive Failure
  /-- The content directory is not there. -/
  | noContent (path : Path)
  /-- The disk does not answer. -/
  | disk (error : Disk.Error)
  deriving DecidableEq, Repr

/-- What a failure to start is told as. -/
def Failure.message : Failure → String
  | noContent path =>
    "Content directory does not exist or is not a directory: " ++ String.ofList path.text
  | disk e => e.describe

namespace Watcher

/-- Starts watching. A watcher that runs goes on. -/
def start (w : Watcher) (disk : Disk) : Except Failure Watcher := do
  if w.running then return w
  if ← (disk.isDirectory w.content).mapError .disk then
    return { w with running := true, debounce := w.debounce.clear }
  else throw (.noContent w.content)

/-- Stops watching. -/
def stop (w : Watcher) : Watcher := { w with running := false, debounce := w.debounce.clear }

/-- Takes in an event. -/
def dispatch (w : Watcher) (disk : Disk) (event : Event) : Watcher :=
  match event.project? disk w.content with
  | some id => if w.running then { w with debounce := w.debounce.touch w.delay id } else w
  | none => w

/-- Moves the clock on, and tells the projects to rebuild. -/
def advance (w : Watcher) (milliseconds : Nat) : List Text × Watcher :=
  let (due, debounce) := w.debounce.advance milliseconds
  (due, { w with debounce })

/-- The projects with a running timer. -/
def pending (w : Watcher) : List Text := w.debounce.pending

end Watcher

end Marginalia.Watch
