import Marginalia.Watch.Watcher

/-!
# Calling back

What a watcher is for. The projects that come due are put into a queue; a worker takes
them from it in turn and calls back for each. A call that fails is noted, and the next
one is made. Starting makes a new queue and a new worker. Stopping ends the worker,
whatever is in the queue.
-/

namespace Marginalia.Watch

/-- What is to be done for a project that is due. It changes a state, and may fail. -/
abbrev Callback (ε σ : Type) := Text → EStateM ε σ Unit

/-- A call for a project, with why it failed if it did. -/
structure Call (ε : Type) where
  id : Text
  failure : Option ε := none
  deriving DecidableEq, Repr

variable {ε σ : Type}

/-- Calls back for projects in turn. -/
def callAll (callback : Callback ε σ) : List Text → σ → List (Call ε) × σ
  | [], state => ([], state)
  | id :: rest, state =>
    let (failure, state) :=
      match callback id state with
      | .ok () state => (none, state)
      | .error e state => (some e, state)
    let (calls, state) := callAll callback rest state
    (⟨id, failure⟩ :: calls, state)

/-- A watcher with its queue and its worker. -/
structure Service where
  watcher : Watcher
  /-- The projects that are due and not taken yet. -/
  queue : List Text := []
  /-- Whether there is a worker. -/
  working : Bool := false
  deriving DecidableEq, Repr

namespace Service

/-- Starts watching. A watcher that runs goes on, and so does its worker. -/
def start (s : Service) (disk : Disk) : Except Failure Service := do
  if s.watcher.running then return s
  return { watcher := ← s.watcher.start disk, queue := [], working := true }

/-- Stops watching. -/
def stop (s : Service) : Service := { s with watcher := s.watcher.stop, working := false }

/-- Takes in an event. -/
def dispatch (s : Service) (disk : Disk) (event : Event) : Service :=
  { s with watcher := s.watcher.dispatch disk event }

/-- Moves the clock on, and tells the projects that the worker takes then. -/
def advance (s : Service) (milliseconds : Nat) : List Text × Service :=
  let (due, watcher) := s.watcher.advance milliseconds
  let queue := s.queue ++ due
  if s.working then (queue, { s with watcher, queue := [] }) else ([], { s with watcher, queue })

end Service

/-! ## Using a service -/

/-- Something that happens to a service or on its disk. -/
inductive Happening
  | start
  | stop
  | event (event : Event)
  | advance (milliseconds : Nat)
  /-- A directory is made, with those on the way to it. -/
  | makeDirectories (path : Path)
  deriving DecidableEq, Repr

/-- A service, its disk, and the state that the callback changes. -/
structure Scene (σ : Type) where
  disk : Disk
  service : Service
  state : σ

/-- What is known of a happening from outside. -/
structure Answer (ε : Type) where
  /-- Why a start failed. -/
  failure : Option Failure := none
  calls : List (Call ε) := []
  deriving DecidableEq, Repr

/-- What comes of a happening. -/
def Scene.meet (callback : Callback ε σ) (scene : Scene σ) : Happening → Answer ε × Scene σ
  | .start =>
    match scene.service.start scene.disk with
    | .ok service => ({}, { scene with service })
    | .error failure => ({ failure := some failure }, scene)
  | .stop => ({}, { scene with service := scene.service.stop })
  | .event event => ({}, { scene with service := scene.service.dispatch scene.disk event })
  | .advance milliseconds =>
    let (due, service) := scene.service.advance milliseconds
    let (calls, state) := callAll callback due scene.state
    ({ calls }, { scene with service, state })
  | .makeDirectories path =>
    match Disk.makeDirectories path none scene.disk with
    | .ok () disk | .error _ disk => ({}, { scene with disk })

end Marginalia.Watch
