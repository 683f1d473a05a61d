import Marginalia.Proofs.Watch.Firing
import Marginalia.Watch.Service

/-!
# Steps of a service

What a happening does to a service. The calls do not matter to it: one is made for each
project that is due, whatever becomes of those before it (`map_id_callAll`), so that the
service is what it is without the state that they change (`Service.next`).

A service is *settled* (`Service.IsSettled`) if nothing is left in its queue, it has a
worker just while it runs, and no timer while it does not run. It begins settled and stays
so. While it runs, it does what the handler of changes does at the same happening
(`Service.IsSettled.handles`), and it does not matter at which time the handler began
(`Debounce.meet_shift`).
-/

namespace Marginalia.Watch

variable {ε σ : Type} {content : Path} {delay : Int}

/-! ## The handler -/

namespace Debounce

/-- What a step, if there is one, does to the timers. -/
def meet? (d : Debounce) (content : Path) (delay : Int) : Option Step → List Text × Debounce
  | some step => d.meet content delay step
  | none => ([], d)

/-- The same timers, some time later. -/
def shift (d : Debounce) (time : Nat) : Debounce :=
  ⟨time + d.now, d.timers.map fun timer => ⟨timer.id, time + timer.due⟩⟩

variable (d : Debounce) (time : Nat)

theorem shift_touch (id : Text) :
    (d.shift time).touch delay id = (d.touch delay id).shift time := by
  rw [touch, touch, shift, shift, List.filter_map, List.map_append, List.map_singleton]
  dsimp only
  rw [Int.natCast_add, Int.add_assoc]
  rfl

theorem shift_advance (n : Nat) :
    (d.shift time).advance n = ((d.advance n).1, (d.advance n).2.shift time) := by
  have hdue : ∀ due : Int, (time + due ≤ ((time + d.now + n : Nat) : Int)) =
      (due ≤ ((d.now + n : Nat) : Int)) := fun due => propext (by omega)
  rw [advance_eq, advance_eq, shift, shift, List.filter_map, List.filter_map, List.map_map,
    Nat.add_assoc]
  simp only [Function.comp_def, ← Nat.add_assoc, hdue]

/-- The timers run as well at another time. -/
theorem meet_shift (step : Step) : (d.shift time).meet content delay step =
    ((d.meet content delay step).1, (d.meet content delay step).2.shift time) := by
  cases step with
  | event disk event =>
    rw [meet, meet]
    cases event.project? disk content with
    | none => rfl
    | some id => exact Prod.ext rfl (d.shift_touch time id)
  | advance n => exact d.shift_advance time n
  | close => rfl

theorem meet?_shift (step? : Option Step) : (d.shift time).meet? content delay step? =
    ((d.meet? content delay step?).1, (d.meet? content delay step?).2.shift time) := by
  cases step? with
  | none => rfl
  | some step => exact d.meet_shift time step

variable {d}

/-- A timer is started by an event that is accepted. -/
theorem mem_pending_of_meet? {step? : Option Step} {id : Text}
    (h : id ∈ (d.meet? content delay step?).2.pending) : id ∈ d.pending ∨
      ∃ disk event, step? = some (.event disk event) ∧ event.Concerns disk content id := by
  match step? with
  | none => exact .inl h
  | some .close => cases h
  | some (.advance n) => exact .inl ((mem_pending_iff_advance n).2 (.inr h))
  | some (.event disk event) =>
    rw [meet?, meet] at h
    cases hproject : event.project? disk content with
    | none =>
      rw [hproject] at h
      exact .inl h
    | some other =>
      rw [hproject] at h
      rcases mem_pending_touch.1 h with rfl | h
      · exact .inr ⟨disk, event, rfl, Event.project?_eq_some_iff.1 hproject⟩
      · exact .inl h

/-- A project that is told had a timer. -/
theorem mem_pending_of_mem_meet? {step? : Option Step} {id : Text}
    (h : id ∈ (d.meet? content delay step?).1) : id ∈ d.pending := by
  match step? with
  | none | some .close => cases h
  | some (.advance n) => exact (mem_pending_iff_advance n).2 (.inl h)
  | some (.event disk event) =>
    rw [meet?, meet] at h
    cases hproject : event.project? disk content with
    | none | some _ =>
      rw [hproject] at h
      cases h

end Debounce

namespace Session

variable (s : Session)

/-- The projects that the steps tell, from the first to the last. -/
def told : List Text := (List.range s.steps.length).flatMap s.emitted

/-- The timers after all steps. -/
def final : Debounce := s.after s.steps.length

/-- A session with further steps. -/
def append (steps : List Step) : Session := { s with steps := s.steps ++ steps }

variable {s} {n : Nat}

theorem after_append {steps : List Step} (h : n ≤ s.steps.length) :
    (s.append steps).after n = s.after n := by
  rw [after, after, append, List.take_append_of_le_length h]

theorem emitted_append {steps : List Step} (h : n < s.steps.length) :
    (s.append steps).emitted n = s.emitted n := by
  rw [emitted, emitted, after_append (Nat.le_of_lt h), append, List.getElem?_append_left h]

/-- What a session tells, and its timers, with a step more. -/
theorem told_final_append (step? : Option Step) :
    (s.append step?.toList).told = s.told ++ (s.final.meet? s.content s.delay step?).1 ∧
      (s.append step?.toList).final = (s.final.meet? s.content s.delay step?).2 := by
  cases step? with
  | none =>
    have hnone : s.append (none : Option Step).toList = s := by
      rw [append, Option.toList_none, List.append_nil]
    rw [hnone, Debounce.meet?, List.append_nil]
    exact ⟨rfl, rfl⟩
  | some step =>
    have hstep : (s.append [step]).steps[s.steps.length]? = some step :=
      List.getElem?_concat_length
    have hlength : (s.append [step]).steps.length = s.steps.length + 1 :=
      List.length_append
    rw [Option.toList_some]
    constructor
    · rw [told, hlength, List.range_succ, List.flatMap_append, List.flatMap_singleton]
      refine congrArg₂ _ (List.flatMap_congr fun j hj => ?_) ?_
      · exact emitted_append (List.mem_range.1 hj)
      · rw [emitted, hstep, after_append (Nat.le_refl _)]
        rfl
    · rw [final, hlength, after_succ hstep, after_append (Nat.le_refl _)]
      rfl

end Session

/-! ## Calls -/

/-- All calls are made, whatever becomes of those before them. -/
theorem map_id_callAll (callback : Callback ε σ) (ids : List Text) (state : σ) :
    (callAll callback ids state).1.map (·.id) = ids := by
  induction ids generalizing state with
  | nil => rfl
  | cons id rest ih =>
    rw [callAll]
    exact congrArg (id :: ·) (ih _)

/-! ## Services -/

namespace Happening

/-- What a happening is to the handler of changes. -/
def step? (disk : Disk) : Happening → Option Step
  | .event e => some (.event disk e)
  | .advance n => some (.advance n)
  | .stop => some .close
  | .start | .makeDirectories _ => none

/-- The disk after a happening. -/
def change (disk : Disk) : Happening → Disk
  | .makeDirectories path =>
    match Disk.makeDirectories path none disk with
    | .ok () disk | .error _ disk => disk
  | .start | .stop | .event _ | .advance _ => disk

end Happening

namespace Service

/-- A service after a happening. -/
def next (s : Service) (disk : Disk) : Happening → Service
  | .start =>
    match s.start disk with
    | .ok s => s
    | .error _ => s
  | .stop => s.stop
  | .event e => s.dispatch disk e
  | .advance n => (s.advance n).2
  | .makeDirectories _ => s

/-- The projects that a happening makes a service call back for. -/
def due (s : Service) : Happening → List Text
  | .advance n => (s.advance n).1
  | .start | .stop | .event _ | .makeDirectories _ => []

variable {s : Service} {disk : Disk}

/-- A service that runs goes on when it is to start. -/
theorem start_of_running (hrunning : s.watcher.running = true) : s.start disk = .ok s := by
  rw [start, if_pos hrunning]
  rfl

/-- A service starts if the content directory is there. -/
theorem start_of_not_running (hrunning : s.watcher.running = false) :
    s.start disk = match disk.isDirectory s.watcher.content with
      | .ok true => .ok
        { watcher := { s.watcher with running := true, debounce := s.watcher.debounce.clear },
          queue := [], working := true }
      | .ok false => .error (.noContent s.watcher.content)
      | .error e => .error (.disk e) := by
  rw [start, Watcher.start, if_neg (hrunning ▸ Bool.false_ne_true),
    if_neg (hrunning ▸ Bool.false_ne_true)]
  cases disk.isDirectory s.watcher.content with
  | error e => rfl
  | ok there => cases there <;> rfl

/-- Nothing is left in the queue of a service, and it has a worker while it runs and a timer
    only then. -/
structure IsSettled (s : Service) (content : Path) (delay : Int) : Prop where
  content : s.watcher.content = content
  delay : s.watcher.delay = delay
  queue : s.queue = []
  working : s.working = s.watcher.running
  idle : s.watcher.running = false → s.watcher.debounce.timers = []

namespace IsSettled

variable (hs : s.IsSettled content delay)
include hs

/-- The worker takes all projects that are due. -/
theorem advance_eq (n : Nat) : s.advance n = ((s.watcher.debounce.advance n).1,
    { s with watcher := { s.watcher with debounce := (s.watcher.debounce.advance n).2 } }) := by
  obtain ⟨watcher, queue, working⟩ := s
  obtain rfl : queue = [] := hs.queue
  obtain rfl : working = watcher.running := hs.working
  rw [advance, Watcher.advance]
  dsimp only
  cases hrunning : watcher.running with
  | true => rfl
  | false =>
    -- There is no worker, and nothing to be taken.
    have hidle : watcher.debounce.timers = [] := hs.idle hrunning
    rw [Debounce.advance_eq, hidle]
    rfl

/-- While it runs, a service does what its handler of changes does. -/
theorem handles (hrunning : s.watcher.running = true) (h : Happening) :
    s.due h = (s.watcher.debounce.meet? content delay (h.step? disk)).1 ∧
      (s.next disk h).watcher.debounce =
        (s.watcher.debounce.meet? content delay (h.step? disk)).2 := by
  cases h with
  | start =>
    rw [next, start_of_running hrunning]
    exact ⟨rfl, rfl⟩
  | stop => exact ⟨rfl, rfl⟩
  | event e =>
    rw [next, dispatch, Watcher.debounce_dispatch hrunning, hs.content, hs.delay]
    refine ⟨?_, rfl⟩
    rw [Happening.step?, Debounce.meet?, Debounce.meet]
    cases e.project? disk content <;> rfl
  | advance n =>
    rw [due, next, hs.advance_eq]
    exact ⟨rfl, rfl⟩
  | makeDirectories path => exact ⟨rfl, rfl⟩

/-- A service that does not run calls for nothing, and has no timer afterwards either. -/
theorem not_running (hrunning : s.watcher.running = false) (h : Happening) :
    s.due h = [] ∧ (s.next disk h).watcher.debounce.timers = [] := by
  have hidle := hs.idle hrunning
  cases h with
  | start =>
    refine ⟨rfl, ?_⟩
    rw [next, start_of_not_running hrunning]
    match disk.isDirectory s.watcher.content with
    | .ok true => rfl
    | .ok false | .error _ => exact hidle
  | stop => exact ⟨rfl, rfl⟩
  | event e =>
    refine ⟨rfl, ?_⟩
    rw [next, dispatch, Watcher.dispatch]
    cases e.project? disk s.watcher.content with
    | none => exact hidle
    | some id =>
      dsimp only
      rwa [if_neg (hrunning ▸ Bool.false_ne_true)]
  | advance n =>
    rw [due, next, hs.advance_eq, Debounce.advance_eq, hidle]
    exact ⟨rfl, rfl⟩
  | makeDirectories path => exact ⟨rfl, hidle⟩

/-- What is neither a start nor a stop changes only the timers. -/
theorem exists_next_eq {h : Happening} (hstart : h ≠ .start) (hstop : h ≠ .stop) :
    ∃ debounce, s.next disk h = { s with watcher := { s.watcher with debounce } } := by
  cases h with
  | start => exact absurd rfl hstart
  | stop => exact absurd rfl hstop
  | event e =>
    rw [next, dispatch, Watcher.dispatch]
    cases e.project? disk s.watcher.content with
    | none => exact ⟨_, rfl⟩
    | some id =>
      dsimp only
      split
      exacts [⟨_, rfl⟩, ⟨_, rfl⟩]
  | advance n => exact ⟨_, congrArg Prod.snd (hs.advance_eq n)⟩
  | makeDirectories path => exact ⟨_, rfl⟩

/-- A service runs once it is started, and until it is stopped. -/
theorem running_next_iff (h : Happening) : (s.next disk h).watcher.running = true ↔
    (h = .start ∧ disk.isDirectory content = .ok true) ∨
      s.watcher.running = true ∧ h ≠ .stop := by
  by_cases hstop : h = .stop
  · subst hstop
    refine iff_of_false Bool.false_ne_true ?_
    rintro (⟨hstart, -⟩ | ⟨-, hne⟩)
    · cases hstart
    · exact hne rfl
  rw [and_iff_left hstop]
  by_cases hstart : h = .start
  · subst hstart
    rw [and_iff_right rfl, next]
    cases hrunning : s.watcher.running with
    | true =>
      rw [start_of_running hrunning]
      exact iff_of_true hrunning (.inr rfl)
    | false =>
      have hstays : ¬s.watcher.running = true := hrunning ▸ Bool.false_ne_true
      rw [start_of_not_running hrunning, hs.content, or_iff_left Bool.false_ne_true]
      match disk.isDirectory content with
      | .ok true => exact iff_of_true rfl rfl
      | .ok false | .error _ => exact iff_of_false hstays (by simp)
  · obtain ⟨debounce, hnext⟩ := hs.exists_next_eq hstart hstop
    rw [hnext, or_iff_right fun h => hstart h.1]

/-- A settled service stays settled. -/
theorem next (h : Happening) : (s.next disk h).IsSettled content delay := by
  by_cases hstop : h = .stop
  · subst hstop
    exact ⟨hs.content, hs.delay, hs.queue, rfl, fun _ => rfl⟩
  by_cases hstart : h = .start
  · subst hstart
    rw [Service.next]
    cases hrunning : s.watcher.running with
    | true => rwa [start_of_running hrunning]
    | false =>
      rw [start_of_not_running hrunning]
      match disk.isDirectory s.watcher.content with
      | .ok true => exact ⟨hs.content, hs.delay, rfl, rfl, fun h => nomatch h⟩
      | .ok false | .error _ => exact hs
  · have hidle (hrunning : s.watcher.running = false) :
        (s.next disk h).watcher.debounce.timers = [] := (hs.not_running hrunning h).2
    obtain ⟨debounce, hnext⟩ := hs.exists_next_eq hstart hstop
    rw [hnext] at hidle ⊢
    exact ⟨hs.content, hs.delay, hs.queue, hs.working, hidle⟩

end IsSettled

end Service

/-! ## Scenes -/

namespace Scene

variable (callback : Callback ε σ) (scene : Scene σ) (h : Happening)

/-- What a happening calls for and changes is the same for all callbacks. -/
theorem meet_eq : ((scene.meet callback h).1.calls.map (·.id) = scene.service.due h) ∧
    (scene.meet callback h).2.service = scene.service.next scene.disk h ∧
    (scene.meet callback h).2.disk = h.change scene.disk := by
  cases h with
  | start =>
    rw [meet, Service.next]
    cases scene.service.start scene.disk <;> exact ⟨rfl, rfl, rfl⟩
  | stop => exact ⟨rfl, rfl, rfl⟩
  | event e => exact ⟨rfl, rfl, rfl⟩
  | advance n => exact ⟨map_id_callAll callback _ _, rfl, rfl⟩
  | makeDirectories path =>
    rw [meet, Happening.change]
    cases Disk.makeDirectories path none scene.disk <;> exact ⟨rfl, rfl, rfl⟩

end Scene

end Marginalia.Watch
