import Marginalia.Proofs.Result
import Marginalia.Watch.Watcher

/-!
# Timers

A timer that is started is pending until it runs out or is stopped: a leap of the clock
tells each project whose timer is pending, or leaves the timer running
(`Debounce.mem_pending_iff_advance`).
-/

namespace Marginalia.Watch

namespace Debounce

variable {d : Debounce} {id other : Text}

theorem mem_pending_touch {delay : Int} :
    other ∈ (d.touch delay id).pending ↔ other = id ∨ other ∈ d.pending := by
  rw [pending_touch, List.mem_append, List.mem_filter, List.mem_singleton, bne_iff_ne]
  by_cases h : other = id <;> simp [h]

/-- A leap fires the timers that are due and keeps the others. -/
theorem advance_eq (d : Debounce) (n : Nat) : d.advance n =
    ((d.timers.filter (·.due ≤ ((d.now + n : Nat) : Int))).map (·.id),
      ⟨d.now + n, d.timers.filter fun timer => !decide (timer.due ≤ ((d.now + n : Nat) : Int))⟩) := by
  rw [advance, List.partition_eq_filter_filter]
  rfl

/-- A pending timer fires in a leap or is pending after it. -/
theorem mem_pending_iff_advance (n : Nat) :
    id ∈ d.pending ↔ id ∈ (d.advance n).1 ∨ id ∈ (d.advance n).2.pending := by
  rw [advance_eq, pending, pending, ← List.mem_append, ← List.map_append]
  exact (List.filter_append_perm _ d.timers).symm.map _ |>.mem_iff

end Debounce

namespace Watcher

variable {w : Watcher} {disk : Disk} {event : Event} {id other : Text}

/-- A watcher starts with no timer. -/
theorem eq_of_start {w' : Watcher} (hnew : w.running = false) (h : w.start disk = .ok w') :
    w' = { w with running := true, debounce := w.debounce.clear } := by
  rw [start, if_neg (hnew ▸ Bool.false_ne_true)] at h
  obtain ⟨there, -, h⟩ := bind_eq_ok.1 h
  cases there with
  | true => exact (Except.ok.inj h).symm
  | false => cases h

/-- An event that concerns a project starts its timer. -/
theorem mem_pending_dispatch (hrunning : w.running = true) :
    other ∈ (w.dispatch disk event).pending ↔
      event.project? disk w.content = some other ∨ other ∈ w.pending := by
  rw [dispatch]
  cases event.project? disk w.content with
  | none => simp
  | some id =>
    dsimp only
    rw [if_pos hrunning, pending, Debounce.mem_pending_touch, Option.some.injEq, eq_comm]
    rfl

theorem running_dispatch (w : Watcher) (disk : Disk) (event : Event) :
    (w.dispatch disk event).running = w.running := by
  rw [dispatch]
  split
  · split <;> rfl
  · rfl

end Watcher

end Marginalia.Watch
