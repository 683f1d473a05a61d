import Marginalia.Text.Basic

/-!
# Debouncing

Bursts of changes made into one rebuild of each project: a change starts the
timer of its project anew, and the project is due once its timer has run out. The
clock moves by leaps; a leap fires all timers that are due by then.

All timers run for the same time, so those started first are due first: the
timers are kept in the order of starting, which is the order of firing. Without a
delay, or with one below zero, a timer is due at the next leap.
-/

namespace Marginalia.Watch

/-- A running timer. -/
structure Timer where
  /-- The project it is for. -/
  id : Text
  /-- The time it runs out, in milliseconds. -/
  due : Int
  deriving DecidableEq, Repr

/-- The clock and the running timers, the one started first at the front. -/
structure Debounce where
  now : Nat := 0
  timers : List Timer := []
  deriving DecidableEq, Repr

namespace Debounce

/-- The projects with a running timer. -/
def pending (d : Debounce) : List Text := d.timers.map (·.id)

/-- Starts the timer of a project anew, to run for `delay` milliseconds. -/
def touch (d : Debounce) (delay : Int) (id : Text) : Debounce :=
  { d with timers := d.timers.filter (·.id != id) ++ [⟨id, d.now + delay⟩] }

/-- Stops all timers. -/
def clear (d : Debounce) : Debounce := { d with timers := [] }

/-- Moves the clock on, and tells the projects whose timers have run out. -/
def advance (d : Debounce) (milliseconds : Nat) : List Text × Debounce :=
  let now := d.now + milliseconds
  -- The timers are in the order of firing, and a leap keeps it.
  let (fired, running) := d.timers.partition (·.due ≤ (now : Int))
  (fired.map (·.id), ⟨now, running⟩)

/-- A project whose timer is started anew has the last timer to run out. -/
@[simp] theorem pending_touch (d : Debounce) (delay : Int) (id : Text) :
    (d.touch delay id).pending = d.pending.filter (· != id) ++ [id] := by
  simp only [pending, touch, List.map_append, List.map_cons, List.map_nil, List.filter_map]
  rfl

@[simp] theorem pending_clear (d : Debounce) : d.clear.pending = [] := rfl

@[simp] theorem timers_clear (d : Debounce) : d.clear.timers = [] := rfl

@[simp] theorem now_advance (d : Debounce) (n : Nat) : (d.advance n).2.now = d.now + n := rfl

end Debounce

end Marginalia.Watch
