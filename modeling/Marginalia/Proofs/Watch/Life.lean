import Marginalia.Proofs.Watch.Period
import Marginalia.Proofs.Watch.Service

/-!
# The life of a service

All that happens to a service from the beginning (`Life`). It runs from a start that finds
the content directory until the next stop (`Life.RunsAt`). What a period of running is to
the handler of changes is a session of its own (`Life.session`): the events and the leaps
of the clock of that period, met by a handler that has no timer yet.

* `Life.exists_shift_session`: within a period the timers are those of the session, at
  another time;
* `Life.calls_by_period`: what is called for is what the sessions tell, one after the other,
  and each call is due to an event since which the service was running.
-/

namespace Marginalia.Watch

/-- A service as it is made, and all that happens to it. -/
structure Life (ε σ : Type) where
  /-- The content directory. -/
  content : Path
  /-- How long the content of a project must be left alone, in milliseconds. -/
  delay : Int
  callback : Callback ε σ
  /-- The state for the first call. -/
  state : σ
  disk : Disk
  happenings : List Happening

namespace Life

variable {ε σ : Type} (l : Life ε σ)

/-- The scene after the first `n` happenings. -/
def scene (n : Nat) : Scene σ :=
  (l.happenings.take n).foldl (fun scene h => (scene.meet l.callback h).2)
    { disk := l.disk, service := { watcher := { content := l.content, delay := l.delay } },
      state := l.state }

/-- The disk after the first `n` happenings. -/
def diskAt (n : Nat) : Disk := (l.happenings.take n).foldl Happening.change l.disk

/-- What comes of a happening. -/
def answer (n : Nat) : Answer ε :=
  match l.happenings[n]? with
  | some h => ((l.scene n).meet l.callback h).1
  | none => {}

/-- The projects called back for at a happening, in the order of the calls. -/
def calledAt (n : Nat) : List Text := (l.answer n).calls.map (·.id)

/-- The projects called back for. -/
def called : List Text := (List.range l.happenings.length).flatMap l.calledAt

/-! ## What is to be called for -/

/-- A start, at a moment at which the content directory is there. -/
def Starts (n : Nat) : Prop :=
  l.happenings[n]? = some .start ∧ (l.diskAt n).isDirectory l.content = .ok true

/-- Why nothing can be started at a moment. -/
def refusal? (n : Nat) : Option Failure :=
  match (l.diskAt n).isDirectory l.content with
  | .ok true => none
  | .ok false => some (.noContent l.content)
  | .error e => some (.disk e)

/-- Before the happening `n` there was a start, and no stop since. -/
def RunsAt (n : Nat) : Prop :=
  ∃ i < n, l.Starts i ∧ ∀ k, i < k → k < n → l.happenings[k]? ≠ some .stop

/-- An event that is accepted for a project. -/
def Accepts (n : Nat) (id : Text) : Prop :=
  ∃ event, l.happenings[n]? = some (.event event) ∧ event.Concerns (l.diskAt n) l.content id

/-- What a happening is to the handler of changes. -/
def step? (n : Nat) : Option Step := l.happenings[n]?.bind (·.step? (l.diskAt n))

/-- What the handler meets within a period: between the start before it and what ends it. -/
def session (p : Nat × Nat) : Session where
  content := l.content
  delay := l.delay
  steps := (List.range' (p.1 + 1) (p.2 - (p.1 + 1))).filterMap l.step?

/-- The same happenings with another callback. -/
def withCallback {ε' σ' : Type} (callback : Callback ε' σ') (state : σ') : Life ε' σ' :=
  { l with callback, state }

variable {l} {a n : Nat} {id : Text}

/-! ## The scenes -/

theorem scene_succ {h : Happening} (hn : l.happenings[n]? = some h) :
    l.scene (n + 1) = ((l.scene n).meet l.callback h).2 := by
  rw [scene, scene, List.take_add_one, hn, List.foldl_append]
  rfl

theorem scene_succ_of_none (hn : l.happenings[n]? = none) : l.scene (n + 1) = l.scene n := by
  rw [scene, scene, List.take_add_one, hn, Option.toList_none, List.append_nil]

theorem diskAt_succ {h : Happening} (hn : l.happenings[n]? = some h) :
    l.diskAt (n + 1) = h.change (l.diskAt n) := by
  rw [diskAt, diskAt, List.take_add_one, hn, List.foldl_append]
  rfl

theorem diskAt_succ_of_none (hn : l.happenings[n]? = none) : l.diskAt (n + 1) = l.diskAt n := by
  rw [diskAt, diskAt, List.take_add_one, hn, Option.toList_none, List.append_nil]

variable (l) in
/-- At each happening the disk is right and the service is settled. -/
theorem scene_isSettled (n : Nat) : (l.scene n).disk = l.diskAt n ∧
    (l.scene n).service.IsSettled l.content l.delay := by
  induction n with
  | zero => exact ⟨rfl, rfl, rfl, rfl, rfl, fun _ => rfl⟩
  | succ n ih =>
    obtain ⟨hdisk, hs⟩ := ih
    match hn : l.happenings[n]? with
    | none =>
      rw [scene_succ_of_none hn, diskAt_succ_of_none hn]
      exact ⟨hdisk, hs⟩
    | some h =>
      obtain ⟨-, hservice', hdisk'⟩ := (l.scene n).meet_eq l.callback h
      rw [scene_succ hn, diskAt_succ hn, hservice', hdisk', hdisk]
      exact ⟨rfl, hs.next h⟩

variable (l) in
theorem scene_disk (n : Nat) : (l.scene n).disk = l.diskAt n := (l.scene_isSettled n).1

variable (l) in
theorem isSettled (n : Nat) : (l.scene n).service.IsSettled l.content l.delay :=
  (l.scene_isSettled n).2

theorem service_succ {h : Happening} (hn : l.happenings[n]? = some h) :
    (l.scene (n + 1)).service = (l.scene n).service.next (l.diskAt n) h := by
  rw [scene_succ hn, ((l.scene n).meet_eq l.callback h).2.1, l.scene_disk]

theorem calledAt_eq {h : Happening} (hn : l.happenings[n]? = some h) :
    l.calledAt n = (l.scene n).service.due h := by
  rw [calledAt, answer, hn]
  exact ((l.scene n).meet_eq l.callback h).1

theorem calledAt_of_none (hn : l.happenings[n]? = none) : l.calledAt n = [] := by
  rw [calledAt, answer, hn]
  rfl

/-! ## Running -/

variable (l) in
theorem not_runsAt_zero : ¬l.RunsAt 0 := fun ⟨_, hlt, _⟩ => absurd hlt (Nat.not_lt_zero _)

theorem runsAt_succ :
    l.RunsAt (n + 1) ↔ l.Starts n ∨ l.RunsAt n ∧ l.happenings[n]? ≠ some .stop := by
  constructor
  · rintro ⟨i, hlt, hstarts, hgoes⟩
    rcases Nat.lt_succ_iff_lt_or_eq.1 hlt with hlt | rfl
    · exact .inr ⟨⟨i, hlt, hstarts, fun k hik hkn => hgoes k hik (Nat.lt_succ_of_lt hkn)⟩,
        hgoes n hlt (Nat.lt_succ_self n)⟩
    · exact .inl hstarts
  · rintro (hstarts | ⟨⟨i, hlt, hstarts, hgoes⟩, hgoes'⟩)
    · exact ⟨n, Nat.lt_succ_self n, hstarts, fun k hik hki => absurd hik (by omega)⟩
    · refine ⟨i, Nat.lt_succ_of_lt hlt, hstarts, fun k hik hkn => ?_⟩
      rcases Nat.lt_succ_iff_lt_or_eq.1 hkn with hkn | rfl
      exacts [hgoes k hik hkn, hgoes']

variable (l) in
/-- The service runs after a start that finds the content directory, until a stop. -/
theorem running_iff_runsAt (n : Nat) :
    (l.scene n).service.watcher.running = true ↔ l.RunsAt n := by
  induction n with
  | zero => exact iff_of_false Bool.false_ne_true l.not_runsAt_zero
  | succ n ih =>
    rw [runsAt_succ, ← ih, Starts]
    match hn : l.happenings[n]? with
    | none =>
      rw [scene_succ_of_none hn]
      simp
    | some h =>
      rw [service_succ hn, (l.isSettled n).running_next_iff, Option.some.injEq, Ne,
        Ne, Option.some.injEq]

theorem running_eq_false (hruns : ¬l.RunsAt n) :
    (l.scene n).service.watcher.running = false :=
  Bool.eq_false_iff.2 fun h => hruns ((l.running_iff_runsAt n).1 h)

/-- While the service does not run, nothing is called for, and no timer is started. -/
theorem calledAt_of_not_runsAt (hruns : ¬l.RunsAt n) : l.calledAt n = [] ∧
    (l.scene (n + 1)).service.watcher.debounce.timers = [] := by
  match hn : l.happenings[n]? with
  | none =>
    rw [calledAt_of_none hn, scene_succ_of_none hn]
    exact ⟨rfl, (l.isSettled n).idle (running_eq_false hruns)⟩
  | some h =>
    rw [calledAt_eq hn, service_succ hn]
    exact (l.isSettled n).not_running (running_eq_false hruns) h

/-- While the service runs, it does what its handler of changes does. -/
theorem handles (hruns : l.RunsAt n) :
    l.calledAt n =
        ((l.scene n).service.watcher.debounce.meet? l.content l.delay (l.step? n)).1 ∧
      (l.scene (n + 1)).service.watcher.debounce =
        ((l.scene n).service.watcher.debounce.meet? l.content l.delay (l.step? n)).2 := by
  rw [step?]
  match hn : l.happenings[n]? with
  | none =>
    rw [calledAt_of_none hn, scene_succ_of_none hn]
    exact ⟨rfl, rfl⟩
  | some h =>
    rw [calledAt_eq hn, service_succ hn]
    exact (l.isSettled n).handles ((l.running_iff_runsAt n).2 hruns) h

/-- At a stop nothing is called for. -/
theorem calledAt_of_ends (hends : ¬(l.RunsAt n ∧ l.RunsAt (n + 1))) : l.calledAt n = [] := by
  by_cases hruns : l.RunsAt n
  · have hstop : l.happenings[n]? = some .stop := by
      by_contra hne
      exact hends ⟨hruns, runsAt_succ.2 (.inr ⟨hruns, hne⟩)⟩
    rw [calledAt_eq hstop]
    rfl
  · exact (calledAt_of_not_runsAt hruns).1

/-! ## Periods -/

variable (l) in
theorem told_session_begin (n : Nat) : (l.session (n, n + 1)).told = [] := by
  rw [session, Nat.sub_self]
  rfl

theorem session_succ (hlt : a < n) :
    l.session (a, n + 1) = (l.session (a, n)).append (l.step? n).toList := by
  have hlength : n + 1 - (a + 1) = n - (a + 1) + 1 := by omega
  have hlast : a + 1 + 1 * (n - (a + 1)) = n := by omega
  rw [session, session, Session.append, hlength, List.range'_concat, hlast,
    List.filterMap_append]
  congr

/-- Within a period the timers are those of its session, at another time. -/
theorem exists_shift_session (hidle : ¬l.RunsAt a) (hlt : a < n)
    (hruns : ∀ k, a < k → k < n → l.RunsAt k) : ∃ time,
      (l.scene n).service.watcher.debounce = (l.session (a, n)).final.shift time := by
  -- By induction on the end of the period. It begins with no timer, whatever time it is.
  induction hlt with
  | refl =>
    refine ⟨(l.scene (a + 1)).service.watcher.debounce.now, ?_⟩
    rw [session, Nat.sub_self]
    exact congrArg (Debounce.mk _) (calledAt_of_not_runsAt hidle).2
  | @step n hlt ih =>
    obtain ⟨time, htime⟩ := ih fun k hak hkn => hruns k hak (Nat.lt_succ_of_lt hkn)
    have hruns := hruns n hlt (Nat.lt_succ_self n)
    refine ⟨time, ?_⟩
    rw [(handles hruns).2, htime, Debounce.meet?_shift, session_succ hlt]
    exact congrArg (Debounce.shift · time) (Session.told_final_append _).2.symm

/-- Within a period, what is called for is what its session tells. -/
theorem told_session_succ (hperiod : IsPeriod l.RunsAt n (a, n)) :
    (l.session (a, n + 1)).told = (l.session (a, n)).told ++ l.calledAt n := by
  obtain ⟨hlt, -, hidle, hruns, -⟩ := hperiod
  obtain ⟨time, htime⟩ := exists_shift_session hidle hlt fun k hak hkn =>
    hruns k hak (Nat.le_of_lt hkn)
  rw [session_succ hlt, (Session.told_final_append _).1,
    (handles (hruns n hlt (Nat.le_refl n))).1, htime, Debounce.meet?_shift]
  rfl

variable (l) in
/-- What is called for in a life is what the sessions of its periods tell, in turn. -/
theorem exists_periods_called : ∃ periods, Periods l.RunsAt l.happenings.length periods ∧
    l.called = periods.flatMap fun p => (l.session p).told :=
  exists_periods l.not_runsAt_zero (fun _ hends => calledAt_of_ends hends) l.told_session_begin
    (fun _ _ hperiod _ => told_session_succ hperiod) l.happenings.length

/-! ## Causes -/

/-- A timer is that of an event since which the service was running. -/
theorem exists_cause_of_mem_pending (h : id ∈ (l.scene n).service.watcher.debounce.pending) :
    ∃ i < n, l.Accepts i id ∧ ∀ k, i ≤ k → k < n → l.RunsAt k := by
  induction n with
  | zero => cases h
  | succ n ih =>
    by_cases hruns : l.RunsAt n
    · rw [(handles hruns).2] at h
      rcases Debounce.mem_pending_of_meet? h with h | ⟨disk, event, hstep, hconcerns⟩
      · obtain ⟨i, hlt, haccepts, hsince⟩ := ih h
        refine ⟨i, Nat.lt_succ_of_lt hlt, haccepts, fun k hik hkn => ?_⟩
        rcases Nat.lt_succ_iff_lt_or_eq.1 hkn with hkn | rfl
        exacts [hsince k hik hkn, hruns]
      · refine ⟨n, Nat.lt_succ_self n, ?_, fun k hnk hkn => ?_⟩
        · rw [step?, Option.bind_eq_some_iff] at hstep
          obtain ⟨happening, hn, hstep⟩ := hstep
          cases happening <;> cases hstep
          exact ⟨event, hn, hconcerns⟩
        · rwa [Nat.le_antisymm (Nat.le_of_lt_succ hkn) hnk]
    · -- Whether or not it is started here, no timer is left from before.
      rw [Debounce.pending, (calledAt_of_not_runsAt hruns).2] at h
      cases h

/-- A call is due to an event since which the service was running. -/
theorem exists_cause (h : id ∈ l.calledAt n) :
    ∃ i < n, l.Accepts i id ∧ ∀ k, i ≤ k → k ≤ n → l.RunsAt k := by
  by_cases hruns : l.RunsAt n
  · rw [(handles hruns).1] at h
    obtain ⟨i, hlt, haccepts, hsince⟩ :=
      exists_cause_of_mem_pending (Debounce.mem_pending_of_mem_meet? h)
    refine ⟨i, hlt, haccepts, fun k hik hkn => ?_⟩
    rcases Nat.lt_or_eq_of_le hkn with hkn | rfl
    exacts [hsince k hik hkn, hruns]
  · rw [(calledAt_of_not_runsAt hruns).1] at h
    cases h

/-! ## Starts in vain -/

/-- A start while the service runs does nothing. -/
theorem start_of_runsAt (hn : l.happenings[n]? = some .start) (hruns : l.RunsAt n) :
    l.answer n = {} ∧ l.scene (n + 1) = l.scene n := by
  have hstart : (l.scene n).service.start (l.scene n).disk = .ok (l.scene n).service :=
    Service.start_of_running ((l.running_iff_runsAt n).2 hruns)
  rw [scene_succ hn, answer, hn]
  dsimp only
  rw [Scene.meet, hstart]
  exact ⟨rfl, rfl⟩

/-- A start without the content directory fails and does nothing. -/
theorem start_of_refusal {failure : Failure} (hn : l.happenings[n]? = some .start)
    (hruns : ¬l.RunsAt n) (hrefusal : l.refusal? n = some failure) :
    l.answer n = { failure := some failure } ∧ l.scene (n + 1) = l.scene n := by
  have hstart : (l.scene n).service.start (l.scene n).disk = .error failure := by
    rw [Service.start_of_not_running (running_eq_false hruns), (l.isSettled n).content,
      l.scene_disk]
    rw [refusal?] at hrefusal
    match hdirectory : (l.diskAt n).isDirectory l.content with
    | .ok true =>
      rw [hdirectory] at hrefusal
      cases hrefusal
    | .ok false | .error _ =>
      rw [hdirectory] at hrefusal
      exact congrArg _ (Option.some.inj hrefusal)
  rw [scene_succ hn, answer, hn]
  dsimp only
  rw [Scene.meet, hstart]
  exact ⟨rfl, rfl⟩

/-! ## Callbacks -/

variable (l) in
/-- The service and the disk are the same for all callbacks. -/
theorem scene_withCallback {ε' σ' : Type} (callback : Callback ε' σ') (state : σ') (n : Nat) :
    ((l.withCallback callback state).scene n).service = (l.scene n).service := by
  induction n with
  | zero => rfl
  | succ n ih =>
    match hn : l.happenings[n]? with
    | none =>
      rw [scene_succ_of_none hn, ← ih]
      exact congrArg Scene.service (scene_succ_of_none hn)
    | some h =>
      rw [service_succ hn, ← ih]
      exact service_succ hn

variable (l) in
/-- The same calls are made at the same happenings for all callbacks. -/
theorem calledAt_withCallback {ε' σ' : Type} (callback : Callback ε' σ') (state : σ') (n : Nat) :
    (l.withCallback callback state).calledAt n = l.calledAt n := by
  match hn : l.happenings[n]? with
  | none =>
    rw [calledAt_of_none hn]
    exact calledAt_of_none hn
  | some h =>
    rw [calledAt_eq hn, ← l.scene_withCallback callback state]
    exact calledAt_eq hn

variable (l) in
/-- What a service calls back for is what the handlers of its periods tell, one after the
    other, each for the events of its period alone. Every call is due to an event that was
    accepted before it, and the service runs from then on. A start while it runs does
    nothing, nor does one that fails. The calls are the same whatever becomes of them. -/
theorem calls_by_period :
    (∀ n, (l.scene n).service.watcher.running = true ↔ l.RunsAt n) ∧
    (∃ periods, Periods l.RunsAt l.happenings.length periods ∧
      l.called = periods.flatMap fun p => (l.session p).told) ∧
    (∀ n id, id ∈ l.calledAt n →
      ∃ i < n, l.Accepts i id ∧ ∀ k, i ≤ k → k ≤ n → l.RunsAt k) ∧
    (∀ n, l.happenings[n]? = some .start →
      (l.RunsAt n → l.answer n = {} ∧ l.scene (n + 1) = l.scene n) ∧
      ∀ failure, ¬l.RunsAt n → l.refusal? n = some failure →
        l.answer n = { failure := some failure } ∧ l.scene (n + 1) = l.scene n) ∧
    ∀ {ε' σ' : Type} (callback : Callback ε' σ') (state : σ') (n : Nat),
      (l.withCallback callback state).calledAt n = l.calledAt n :=
  ⟨l.running_iff_runsAt, l.exists_periods_called, fun _ _ => exists_cause,
    fun _ hn => ⟨start_of_runsAt hn, fun _ => start_of_refusal hn⟩, l.calledAt_withCallback⟩

/-- A change that waits at a stop is not called for. Of the two after the next start both are,
    though each call fails. -/
example :
    let change (path : String) : Happening := .event ⟨.modified, path.toList, none, false⟩
    let life : Life Unit Unit :=
      ⟨.ofText "/content".toList, 500, fun _ => throw (), (), ⟨[], 0, []⟩,
        [.start, .makeDirectories (.ofText "/content".toList), .start, change "/content/p/a.ino",
          .advance 400, .stop, .advance 100, .start, .advance 100, change "/content/q/a.ino",
          .start, change "/content/r/a.ino", .advance 500]⟩
    life.called = ["q".toList, "r".toList] := by
  decide +kernel

end Life

end Marginalia.Watch
