import Marginalia.Proofs.Watch.Debounce

/-!
# Firing

A *session* of a handler of changes: events, leaps of the clock and stops, in the order
they come. An event is accepted for a project if it creates or modifies a watched file
below the directory of the project (`Session.Accepts`). It waits until the first leap that
brings the clock to the end of its delay (`Session.IsDueAt`), unless another event is
accepted for its project before that, or all timers are stopped (`Session.IsLeftAlone`).

* `Session.exists_lists_waits`: the timers that run after any number of steps are those of
  the events that still wait, in the order of the events;
* `Session.fires_in_order`: each step tells the projects of just those events that are due
  at it and were left alone until then, once each and in the order of the events; and the
  timers that run are of different projects, those due first at the front.
-/

namespace Marginalia.Watch

/-! ## Steps -/

/-- An event concerns a project: it creates or modifies a file whose name is watched, and
    which is below the directory of the project. -/
structure Event.Concerns (event : Event) (disk : Disk) (content : Path) (id : Text) : Prop where
  written : event.change = .created ∨ event.change = .modified
  file : event.directory = false
  watched : event.isWatched = true
  inside : projectOf? disk content (.ofText event.path) = some id

theorem Event.project?_eq_some_iff {event : Event} {disk : Disk} {content : Path} {id : Text} :
    event.project? disk content = some id ↔ event.Concerns disk content id := by
  rw [project?]
  constructor
  · intro h
    split at h
    · cases h
    next hpassed =>
    rw [Bool.or_eq_true, Bool.not_eq_true', not_or, Bool.not_eq_true, Bool.not_eq_false]
      at hpassed
    split at h
    next hcreated => exact ⟨.inl hcreated, hpassed.1, hpassed.2, h⟩
    next hmodified => exact ⟨.inr hmodified, hpassed.1, hpassed.2, h⟩
    · cases h
  · rintro ⟨hwritten, hfile, hwatched, hinside⟩
    rw [hfile, hwatched, if_neg (by decide)]
    rcases hwritten with hchange | hchange <;> rw [hchange] <;> exact hinside

/-- What a handler of changes meets. -/
inductive Step
  /-- Something happened, with the disk as it was then. -/
  | event (disk : Disk) (event : Event)
  /-- The clock moved on. -/
  | advance (milliseconds : Nat)
  /-- All timers are to stop. -/
  | close

/-- How long a step takes. -/
def Step.duration : Step → Nat
  | .advance n => n
  | .event .. | .close => 0

/-- What a step does to the timers, with the projects it tells. -/
def Debounce.meet (d : Debounce) (content : Path) (delay : Int) : Step → List Text × Debounce
  | .event disk event =>
    match event.project? disk content with
    | some id => ([], d.touch delay id)
    | none => ([], d)
  | .advance n => d.advance n
  | .close => ([], d.clear)

/-! The handler of a watcher meets what the watcher does. -/

namespace Watcher

variable {w : Watcher}

theorem debounce_dispatch {disk : Disk} {event : Event} (hrunning : w.running = true) :
    (w.dispatch disk event).debounce =
      (w.debounce.meet w.content w.delay (.event disk event)).2 := by
  rw [dispatch, Debounce.meet]
  cases event.project? disk w.content with
  | none => rfl
  | some id =>
    dsimp only
    rw [if_pos hrunning]

end Watcher

/-- The steps that a handler meets, beginning with no timer. -/
structure Session where
  /-- The content directory. -/
  content : Path
  /-- How long a project must be left alone, in milliseconds. -/
  delay : Int
  steps : List Step

namespace Session

variable (s : Session)

/-- The timers after the first `n` steps. -/
def after (n : Nat) : Debounce :=
  (s.steps.take n).foldl (fun d step => (d.meet s.content s.delay step).2) {}

/-- The projects that a step tells. -/
def emitted (j : Nat) : List Text :=
  match s.steps[j]? with
  | some step => ((s.after j).meet s.content s.delay step).1
  | none => []

/-- The time after the first `n` steps, and so the time of the step that comes next. -/
def clock (n : Nat) : Nat := (s.steps.take n).foldl (fun time step => time + step.duration) 0

/-! ## What is to be told -/

/-- A step is an event accepted for a project. -/
def Accepts (i : Nat) (id : Text) : Prop :=
  ∃ disk event, s.steps[i]? = some (.event disk event) ∧ event.Concerns disk s.content id

/-- A step is a leap of the clock. -/
def IsLeap (j : Nat) : Prop := ∃ n, s.steps[j]? = some (.advance n)

/-- A leap reaches the end of the delay of a step. -/
def Reaches (i j : Nat) : Prop := s.IsLeap j ∧ s.clock i + s.delay ≤ s.clock (j + 1)

/-- A step is due at the first leap after it that reaches the end of its delay. -/
def IsDueAt (i j : Nat) : Prop :=
  i < j ∧ s.Reaches i j ∧ ∀ k, i < k → k < j → ¬s.Reaches i k

/-- Between two steps nothing is accepted for a project, and the timers are not stopped. -/
def IsLeftAlone (i j : Nat) (id : Text) : Prop :=
  ∀ k, i < k → k < j → ¬s.Accepts k id ∧ s.steps[k]? ≠ some .close

/-- A step makes a later one tell a project. -/
structure Fires (j i : Nat) (id : Text) : Prop where
  accepted : s.Accepts i id
  due : s.IsDueAt i j
  alone : s.IsLeftAlone i j id

/-- A step is still to be answered after the first `n` steps. -/
structure Waits (n i : Nat) (id : Text) : Prop where
  accepted : s.Accepts i id
  lt : i < n
  running : ∀ k, i < k → k < n → ¬s.Reaches i k
  alone : s.IsLeftAlone i n id

variable {s} {i j j' n : Nat} {id : Text}

theorem Fires.unique (h : s.Fires j i id) (h' : s.Fires j' i id) : j = j' := by
  obtain ⟨hlt, hreaches, hfirst⟩ := h.due
  obtain ⟨hlt', hreaches', hfirst'⟩ := h'.due
  rcases Nat.lt_trichotomy j j' with hj | hj | hj
  · exact absurd hreaches (hfirst' j hlt hj)
  · exact hj
  · exact absurd hreaches' (hfirst j' hlt' hj)

theorem fires_iff : s.Fires j i id ↔ s.Waits j i id ∧ s.Reaches i j := by
  constructor
  · rintro ⟨haccepted, ⟨hlt, hreaches, hfirst⟩, halone⟩
    exact ⟨⟨haccepted, hlt, hfirst, halone⟩, hreaches⟩
  · rintro ⟨⟨haccepted, hlt, hrunning, halone⟩, hreaches⟩
    exact ⟨haccepted, ⟨hlt, hreaches, hrunning⟩, halone⟩

/-- After one more step, an event waits if it is that step, or if it did and the step
    leaves it alone. -/
theorem waits_succ : s.Waits (n + 1) i id ↔ (i = n ∧ s.Accepts n id) ∨
    (s.Waits n i id ∧ ¬s.Reaches i n ∧ ¬s.Accepts n id ∧ s.steps[n]? ≠ some .close) := by
  constructor
  · rintro ⟨haccepted, hlt, hrunning, halone⟩
    rcases Nat.lt_succ_iff_lt_or_eq.1 hlt with hlt | rfl
    · refine .inr ⟨⟨haccepted, hlt, fun k hik hkn => hrunning k hik (Nat.lt_succ_of_lt hkn),
        fun k hik hkn => halone k hik (Nat.lt_succ_of_lt hkn)⟩, ?_, halone n hlt n.lt_succ_self⟩
      exact hrunning n hlt n.lt_succ_self
    · exact .inl ⟨rfl, haccepted⟩
  · rintro (⟨rfl, haccepted⟩ | ⟨⟨haccepted, hlt, hrunning, halone⟩, hreaches, hnew⟩)
    · exact ⟨haccepted, i.lt_succ_self, fun k hik hki => absurd hik (by omega),
        fun k hik hki => absurd hik (by omega)⟩
    · refine ⟨haccepted, Nat.lt_succ_of_lt hlt, fun k hik hkn => ?_, fun k hik hkn => ?_⟩ <;>
        rcases Nat.lt_succ_iff_lt_or_eq.1 hkn with hkn | rfl
      exacts [hrunning k hik hkn, hreaches, halone k hik hkn, hnew]

/-- Of two events for one project only the later one waits. -/
theorem Waits.unique (h : s.Waits n i id) (h' : s.Waits n j id) : i = j := by
  rcases Nat.lt_trichotomy i j with hij | hij | hij
  · exact absurd h'.accepted (h.alone j hij h'.lt).1
  · exact hij
  · exact absurd h.accepted (h'.alone i hij h.lt).1

/-! ## One step -/

theorem clock_succ : s.clock (n + 1) = s.clock n + (s.steps[n]?.map Step.duration).getD 0 := by
  rw [clock, clock, List.take_add_one, List.foldl_append]
  cases s.steps[n]? with
  | none => rfl
  | some step => rfl

theorem clock_le_clock (h : i ≤ j) : s.clock i ≤ s.clock j := by
  induction h with
  | refl => exact Nat.le_refl _
  | step _ ih => exact Nat.le_trans ih (clock_succ ▸ Nat.le_add_right _ _)

theorem after_succ_of_none (h : s.steps[n]? = none) : s.after (n + 1) = s.after n := by
  rw [after, after, List.take_add_one, h, Option.toList_none, List.append_nil]

theorem after_succ {step : Step} (h : s.steps[n]? = some step) :
    s.after (n + 1) = ((s.after n).meet s.content s.delay step).2 := by
  rw [after, after, List.take_add_one, h, List.foldl_append]
  rfl

theorem accepts_iff {disk : Disk} {event : Event} (h : s.steps[n]? = some (.event disk event)) :
    s.Accepts n id ↔ event.project? disk s.content = some id := by
  rw [Event.project?_eq_some_iff]
  refine ⟨?_, fun hconcerns => ⟨disk, event, h, hconcerns⟩⟩
  rintro ⟨disk', event', h', hconcerns⟩
  cases h.symm.trans h'
  exact hconcerns

/-! ## Lists of steps -/

/-- Steps with their projects, each of which has a property, in the order of time. -/
structure Lists (causes : List (Nat × Text)) (p : Nat → Text → Prop) : Prop where
  ascending : causes.Pairwise (·.1 < ·.1)
  mem_iff : ∀ i id, (i, id) ∈ causes ↔ p i id

namespace Lists

variable {causes : List (Nat × Text)} {p q : Nat → Text → Prop}

theorem congr (h : Lists causes p) (hiff : ∀ i id, p i id ↔ q i id) : Lists causes q :=
  ⟨h.ascending, fun i id => (h.mem_iff i id).trans (hiff i id)⟩

theorem filter (h : Lists causes p) (keeps : Nat × Text → Bool) :
    Lists (causes.filter keeps) fun i id => p i id ∧ keeps (i, id) = true :=
  ⟨h.ascending.filter _, fun i id => by rw [List.mem_filter, h.mem_iff]⟩

/-- A step after all that are listed. -/
theorem concat (h : Lists causes p) (hlt : ∀ i id, p i id → i < n) (other : Text) :
    Lists (causes ++ [(n, other)]) fun i id => (i = n ∧ id = other) ∨ p i id := by
  refine ⟨List.pairwise_append.2 ⟨h.ascending, List.pairwise_singleton _ _, ?_⟩, fun i id => ?_⟩
  · rintro ⟨i, id⟩ hcause step hstep
    rw [List.mem_singleton.1 hstep]
    exact hlt i id ((h.mem_iff i id).1 hcause)
  · rw [List.mem_append, List.mem_singleton, h.mem_iff, Prod.mk.injEq, or_comm]

/-- Where each project has one step only, it is listed once. -/
theorem nodup (h : Lists causes p) (hunique : ∀ i j id, p i id → p j id → i = j) :
    (causes.map (·.2)).Nodup := by
  rw [List.Nodup, List.pairwise_map]
  refine h.ascending.imp_of_mem fun {a b} ha hb hlt heq => ?_
  obtain ⟨i, id⟩ := a
  obtain ⟨j, other⟩ := b
  cases (heq : id = other)
  exact Nat.ne_of_lt hlt (hunique i j id ((h.mem_iff i id).1 ha) ((h.mem_iff j id).1 hb))

end Lists

/-! ## What waits after a step -/

/-- A step that is neither accepted nor a leap nor a stop changes nothing. -/
theorem waits_succ_of_idle (hidle : ∀ id, ¬s.Accepts n id) (hleap : ¬s.IsLeap n)
    (hclose : s.steps[n]? ≠ some .close) : s.Waits (n + 1) i id ↔ s.Waits n i id := by
  rw [waits_succ, or_iff_right fun h => hidle id h.2]
  exact and_iff_left ⟨fun h => hleap h.1, hidle id, hclose⟩

/-- An event that is accepted waits from then on, in place of all before it for its
    project. -/
theorem waits_succ_of_accepts {other : Text} (haccepts : ∀ id, s.Accepts n id ↔ id = other)
    (hleap : ¬s.IsLeap n) (hclose : s.steps[n]? ≠ some .close) :
    s.Waits (n + 1) i id ↔ (i = n ∧ id = other) ∨ s.Waits n i id ∧ id ≠ other := by
  rw [waits_succ, haccepts]
  refine or_congr_right (and_congr_right fun _ => ?_)
  exact ⟨fun h => h.2.1, fun h => ⟨fun hreaches => hleap hreaches.1, h, hclose⟩⟩

/-- A leap ends the waiting of what it reaches. -/
theorem waits_succ_of_leap {m : Nat} (h : s.steps[n]? = some (.advance m)) :
    s.Waits (n + 1) i id ↔ s.Waits n i id ∧ ¬s.Reaches i n := by
  have hidle : ¬s.Accepts n id := fun ⟨_, _, hevent, _⟩ => by cases h.symm.trans hevent
  rw [waits_succ, or_iff_right fun haccepts => hidle haccepts.2]
  refine and_congr_right fun _ => and_iff_left ⟨hidle, ?_⟩
  rw [h]
  exact fun hclose => by cases hclose

/-- A stop ends all waiting. -/
theorem not_waits_succ_of_close (h : s.steps[n]? = some .close) : ¬s.Waits (n + 1) i id := by
  rw [waits_succ, not_or]
  constructor
  · rintro ⟨-, _, _, hevent, -⟩
    cases h.symm.trans hevent
  · rintro ⟨-, -, -, hclose⟩
    exact hclose h

/-! ## The timers -/

variable (s) in
/-- The timer of a step. -/
def timer (cause : Nat × Text) : Timer := ⟨cause.2, s.clock cause.1 + s.delay⟩

/-- At a leap the timers that are due are those of the steps that it reaches. -/
theorem due_timer_iff {m : Nat} (h : s.steps[n]? = some (.advance m)) (cause : Nat × Text) :
    (s.timer cause).due ≤ ((s.clock n + m : Nat) : Int) ↔ s.Reaches cause.1 n := by
  have hclock : s.clock (n + 1) = s.clock n + m := by rw [clock_succ, h]; rfl
  rw [Reaches, and_iff_right ⟨m, h⟩, hclock]
  rfl

theorem touch_timers (causes : List (Nat × Text)) (other : Text) :
    Debounce.touch ⟨s.clock n, causes.map s.timer⟩ s.delay other =
      ⟨s.clock n, (causes.filter (·.2 != other) ++ [(n, other)]).map s.timer⟩ := by
  rw [Debounce.touch, List.filter_map, List.map_append]
  rfl

theorem advance_timers (causes : List (Nat × Text)) (now m : Nat) :
    Debounce.advance ⟨now, causes.map s.timer⟩ m =
      ((causes.filter fun cause => (s.timer cause).due ≤ ((now + m : Nat) : Int)).map (·.2),
        ⟨now + m, (causes.filter fun cause =>
          !decide ((s.timer cause).due ≤ ((now + m : Nat) : Int))).map s.timer⟩) := by
  rw [Debounce.advance_eq, List.filter_map, List.filter_map, List.map_map]
  rfl

variable (s) in
/-- After any number of steps the clock is right, and the timers are those of the events
    that wait, in the order of the events. -/
theorem exists_lists_waits (n : Nat) : ∃ causes, Lists causes (s.Waits n) ∧
    s.after n = ⟨s.clock n, causes.map s.timer⟩ := by
  -- By induction on the steps. Each kind of step does to the timers what it does to the events
  -- that wait: an event is put after all others, a leap takes out what it reaches.
  induction n with
  | zero =>
    refine ⟨[], ⟨List.Pairwise.nil, fun i id => ?_⟩, rfl⟩
    exact iff_of_false List.not_mem_nil fun hwaits => absurd hwaits.lt (Nat.not_lt_zero i)
  | succ n ih =>
    obtain ⟨causes, hlists, hafter⟩ := ih
    match hstep : s.steps[n]? with
    | none =>
      -- The session is over.
      have hidle : ∀ id, ¬s.Accepts n id := fun id ⟨_, _, hevent, _⟩ => by
        cases hstep.symm.trans hevent
      have hleap : ¬s.IsLeap n := fun ⟨_, hadvance⟩ => by cases hstep.symm.trans hadvance
      have hclose : s.steps[n]? ≠ some .close := fun h => by cases hstep.symm.trans h
      rw [after_succ_of_none hstep, hafter, clock_succ, hstep]
      exact ⟨causes, hlists.congr fun i id => (waits_succ_of_idle hidle hleap hclose).symm, rfl⟩
    | some (.event disk event) =>
      have hleap : ¬s.IsLeap n := fun ⟨_, hadvance⟩ => by cases hstep.symm.trans hadvance
      have hclose : s.steps[n]? ≠ some .close := fun h => by cases hstep.symm.trans h
      rw [after_succ hstep, hafter, clock_succ, hstep, Debounce.meet]
      cases hother : event.project? disk s.content with
      | none =>
        have hidle : ∀ id, ¬s.Accepts n id := fun id => by
          rw [accepts_iff hstep, hother]
          exact fun h => by cases h
        exact ⟨causes, hlists.congr fun i id => (waits_succ_of_idle hidle hleap hclose).symm, rfl⟩
      | some other =>
        have haccepts : ∀ id, s.Accepts n id ↔ id = other := fun id => by
          rw [accepts_iff hstep, hother, Option.some.injEq, eq_comm]
        refine ⟨_, ((hlists.filter (·.2 != other)).concat (fun i id h => h.1.lt) other).congr
          fun i id => ?_, touch_timers causes other⟩
        rw [waits_succ_of_accepts haccepts hleap hclose, bne_iff_ne]
    | some (.advance m) =>
      rw [after_succ hstep, hafter, clock_succ, hstep, Debounce.meet, advance_timers]
      refine ⟨_, (hlists.filter _).congr fun i id => ?_, rfl⟩
      rw [waits_succ_of_leap hstep, ← due_timer_iff hstep (i, id), Bool.not_eq_true',
        decide_eq_false_iff_not]
    | some .close =>
      rw [after_succ hstep, hafter, clock_succ, hstep]
      refine ⟨[], ⟨List.Pairwise.nil, fun i id => ?_⟩, rfl⟩
      exact iff_of_false List.not_mem_nil (not_waits_succ_of_close hstep)

/-- Only leaps of the clock tell anything. -/
theorem emitted_of_not_isLeap (hleap : ¬s.IsLeap j) : s.emitted j = [] := by
  rw [emitted]
  match hstep : s.steps[j]? with
  | none => rfl
  | some (.event disk event) =>
    dsimp only [Debounce.meet]
    cases event.project? disk s.content <;> rfl
  | some (.advance m) => exact absurd ⟨m, hstep⟩ hleap
  | some .close => rfl

variable (s) in
/-- A step tells the projects of the events that are due at it and were left alone, in the
    order of the events. -/
theorem exists_lists_fires (j : Nat) : ∃ causes, Lists causes (s.Fires j) ∧
    s.emitted j = causes.map (·.2) := by
  by_cases hleap : s.IsLeap j
  · obtain ⟨m, hstep⟩ := hleap
    obtain ⟨causes, hlists, hafter⟩ := s.exists_lists_waits j
    rw [emitted, hstep]
    dsimp only [Debounce.meet]
    rw [hafter, advance_timers]
    refine ⟨_, (hlists.filter _).congr fun i id => ?_, rfl⟩
    rw [fires_iff, ← due_timer_iff hstep (i, id), decide_eq_true_iff]
  · refine ⟨[], ⟨List.Pairwise.nil, fun i id => ?_⟩, emitted_of_not_isLeap hleap⟩
    exact iff_of_false List.not_mem_nil fun hfires => hleap hfires.due.2.1.1

variable (s) in
/-- The timers that run are of different projects, and those due first are at the front. -/
theorem pending_nodup_and_ascending (n : Nat) : (s.after n).pending.Nodup ∧
    (s.after n).timers.Pairwise (·.due ≤ ·.due) := by
  obtain ⟨causes, hlists, hafter⟩ := s.exists_lists_waits n
  rw [hafter]
  constructor
  · rw [Debounce.pending, List.map_map]
    exact hlists.nodup fun i j id h h' => h.unique h'
  · rw [List.pairwise_map]
    refine hlists.ascending.imp fun hlt => Int.add_le_add_right ?_ _
    exact Int.ofNat_le.2 (clock_le_clock (Nat.le_of_lt hlt))

variable (s) in
/-- Each step tells, in the order of the events, the projects of just those accepted
    events that it is the first leap to reach the end of the delay of, and that were left
    alone until then. No event fires twice, no step tells a project twice, and the timers
    that run are of different projects, those due first at the front. -/
theorem fires_in_order :
    (∀ j, (s.emitted j).Nodup ∧
      ∃ causes, Lists causes (s.Fires j) ∧ s.emitted j = causes.map (·.2)) ∧
    (∀ i j j' id, s.Fires j i id → s.Fires j' i id → j = j') ∧
    ∀ n, (s.after n).pending.Nodup ∧ (s.after n).timers.Pairwise (·.due ≤ ·.due) := by
  refine ⟨fun j => ?_, fun i j j' id h h' => h.unique h', s.pending_nodup_and_ascending⟩
  obtain ⟨causes, hlists, hemitted⟩ := s.exists_lists_fires j
  refine ⟨?_, causes, hlists, hemitted⟩
  rw [hemitted]
  exact hlists.nodup fun i i' id h h' => (fires_iff.1 h).1.unique (fires_iff.1 h').1

end Session

end Marginalia.Watch
