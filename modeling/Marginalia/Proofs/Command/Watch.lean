import Marginalia.Command.Watch
import Marginalia.Proofs.Site.Settings
import Marginalia.Proofs.Site.Staleness
import Marginalia.Proofs.Watch.Debounce
import Marginalia.Proofs.Watch.Trace

/-!
# Runs of the command that watches

After its start the command takes in events, lets time pass and rebuilds what is due,
while files are written below the content directory (`Run`). The projects that are stale
in the trace of a run are the only ones whose output may not be up to date, and each
project with an event that no rebuild has followed has a timer that runs, or is due
(`Invariant`).

So a run in which each write to a project is followed by an event for it converges: once
no timer runs, all that was due is rebuilt, and the last rebuild of each project written to
was done, a build of the whole site would keep all bytes (`build_keeps_bytes_after_run`).
-/

namespace Marginalia.Command.Watch

open Disk (leftBy leftBy_of_ok leftBy_of_error)
open Marginalia.Watch (Moment Outstanding IsUnanswered IsAwaited IsRebuilt IsStale)

variable {site : Site} {limits : Site.Limits} {s s₀ : Session} {d d₀ disk : Disk}
  {trace : List Moment} {id : Text}
  {ids : List Text}

/-! ## Runs -/

/-- What is noted of rebuilds of projects in turn. -/
def rebuildMoments (site : Site) (limits : Site.Limits) (disk : Disk) : List Text → List Moment
  | [] => []
  | id :: rest =>
    let result := site.rebuild limits id disk
    .rebuilt id (Disk.answerOf? result).isSome ::
      rebuildMoments site limits (Session.diskOf result) rest

/-- The runs of the command after its start, with what is noted of them. -/
inductive Run (s₀ : Session) (d₀ : Disk) : List Moment → Session → Disk → Prop
  | start : Run s₀ d₀ [] s₀ d₀
  /-- A file below the directory of a project is written. -/
  | write {trace : List Moment} {s : Session} {d d' : Disk} {l : Location} {id : Text}
    (h : Run s₀ d₀ trace s d) (hwrite : s.site.Writes l d d')
    (hproject : s.site.content.HasProject d' id)
    (hl : s.site.content.locationOf d id <+: l) : Run s₀ d₀ (trace ++ [.wrote id]) s d'
  /-- Some other file below the content directory is written. -/
  | writeElse {trace : List Moment} {s : Session} {d d' : Disk} {l : Location}
    (h : Run s₀ d₀ trace s d) (hwrite : s.site.Writes l d d')
    (hl : ∀ id, s.site.content.HasProject d' id → ¬s.site.content.locationOf d id <+: l) :
    Run s₀ d₀ trace s d'
  | event {trace : List Moment} {s : Session} {d : Disk} (h : Run s₀ d₀ trace s d)
    (event : Watch.Event) :
    Run s₀ d₀ (trace ++ (event.project? d s.watcher.content).toList.map .accepted)
      (s.dispatch d event) d
  | advance {trace : List Moment} {s : Session} {d : Disk} (h : Run s₀ d₀ trace s d)
    (milliseconds : Nat) : Run s₀ d₀ trace (s.advance milliseconds) d
  | endRound {trace : List Moment} {s : Session} {d : Disk} (h : Run s₀ d₀ trace s d) :
    Run s₀ d₀ (trace ++ rebuildMoments s.site s.limits d s.queue) (s.endRound d).1 (s.endRound d).2

/-! ## Rebuilds in turn -/

theorem Session.diskOf_eq (result : EStateM.Result Site.Failure Disk Page) :
    Session.diskOf result = leftBy result := by
  cases result <;> rfl

theorem Session.queue_endRound (s : Session) (d : Disk) : (s.endRound d).1.queue = [] := rfl

/-- Rebuilds are noted of the projects that are rebuilt. -/
theorem exists_isRebuild_iff :
    (∃ moment ∈ rebuildMoments site limits d ids, moment.IsRebuild id) ↔ id ∈ ids := by
  induction ids generalizing d with
  | nil => simp [rebuildMoments]
  | cons first rest ih =>
    rw [rebuildMoments, List.exists_mem_cons_iff, ih, List.mem_cons, eq_comm]
    rfl

/-- Nothing else is noted. -/
theorem exists_of_mem_rebuildMoments {moment : Moment}
    (h : moment ∈ rebuildMoments site limits d ids) :
    ∃ id done, moment = .rebuilt id done := by
  induction ids generalizing d with
  | nil => cases h
  | cons first rest ih =>
    rcases List.mem_cons.1 h with rfl | h
    · exact ⟨_, _, rfl⟩
    · exact ih h

/-- Rebuilds make those projects up to date for which they are done. -/
theorem isSettled_rebuildAll (h : site.IsSettled limits {id | IsStale trace id} d)
    (ids : List Text) :
    site.IsSettled limits {id | IsStale (trace ++ rebuildMoments site limits d ids) id}
      (Session.rebuildAll site limits d ids).2 := by
  induction ids generalizing trace d with
  | nil =>
    rw [rebuildMoments, List.append_nil]
    exact h
  | cons id rest ih =>
    rw [rebuildMoments, List.append_cons]
    refine ih ?_
    rw [Session.diskOf_eq]
    cases hrebuild : site.rebuild limits id d with
    | ok page d' =>
      refine (h.rebuild hrebuild).mono ?_
      rintro other ⟨hstale, hne⟩
      refine Outstanding.of_concat.2 (.inr ⟨hstale, fun hmoment => hne ?_⟩)
      exact (Moment.rebuilt.inj hmoment).1.symm
    | error failure d' =>
      refine (leftBy_of_error hrebuild ▸ h.leftBy_rebuild id).mono fun other hstale => ?_
      refine Outstanding.of_concat.2 (.inr ⟨hstale, fun hmoment => ?_⟩)
      exact Bool.noConfusion (Moment.rebuilt.inj hmoment).2

/-! ## What holds throughout a run -/

/-- What holds of a run of the command that watches a site. -/
structure Invariant (site : Site) (limits : Site.Limits) (trace : List Moment) (s : Session)
    (d : Disk) : Prop where
  site_eq : s.site = site
  limits_eq : s.limits = limits
  running : s.watcher.running = true
  isSettled : site.IsSettled limits {id | IsStale trace id} d
  /-- A project with an event that no rebuild has followed is waited for. -/
  due : s.fires = true → ∀ id, IsAwaited trace id → id ∈ s.watcher.pending ∨ id ∈ s.queue
  /-- If no time is long enough, nothing is rebuilt. -/
  idle : s.fires = false → s.watcher.pending = [] ∧ s.queue = [] ∧
    ∀ moment ∈ trace, ∀ id, ¬moment.IsRebuild id

namespace Invariant

variable {d' : Disk} {l : Location}

theorem write (h : Invariant site limits trace s d) (hwrite : site.Writes l d d')
    (hproject : site.content.HasProject d' id) (hl : site.content.locationOf d id <+: l) :
    Invariant site limits (trace ++ [.wrote id]) s d' where
  site_eq := h.site_eq
  limits_eq := h.limits_eq
  running := h.running
  isSettled := by
    refine (h.isSettled.write hwrite hproject hl).mono ?_
    rintro other (rfl | hstale)
    · exact Outstanding.of_concat.2 (.inl rfl)
    · exact Outstanding.of_concat.2 (.inr ⟨hstale, Moment.noConfusion⟩)
  due hfires other hawaited := by
    rcases Outstanding.of_concat.1 hawaited with hmoment | ⟨hawaited, -⟩
    · cases hmoment
    · exact h.due hfires other hawaited
  idle hidle := by
    obtain ⟨hpending, hqueue, hnone⟩ := h.idle hidle
    refine ⟨hpending, hqueue, List.forall_mem_append.2 ⟨hnone, ?_⟩⟩
    exact List.forall_mem_singleton.2 fun _ => not_false

theorem writeElse (h : Invariant site limits trace s d) (hwrite : site.Writes l d d')
    (hl : ∀ id, site.content.HasProject d' id → ¬site.content.locationOf d id <+: l) :
    Invariant site limits trace s d' :=
  { h with isSettled := h.isSettled.writeElse hwrite hl }

/-- What is noted of an event. -/
theorem eq_of_mem_accepted {accepted : Option Text} {moment : Moment}
    (hmoment : moment ∈ accepted.toList.map Moment.accepted) :
    ∃ id, accepted = some id ∧ moment = .accepted id := by
  obtain ⟨id, hid, rfl⟩ := List.mem_map.1 hmoment
  exact ⟨id, Option.mem_toList.1 hid, rfl⟩

theorem event (h : Invariant site limits trace s d) (event : Watch.Event) :
    Invariant site limits (trace ++ (event.project? d s.watcher.content).toList.map .accepted)
      (s.dispatch d event) d := by
  have hsettled : site.IsSettled limits {id | IsStale
      (trace ++ (event.project? d s.watcher.content).toList.map .accepted) id} d := by
    refine h.isSettled.mono fun other hstale => (Outstanding.of_append ?_).2 ⟨hstale, ?_⟩ <;>
    · rintro moment hmoment rfl
      obtain ⟨_, -, heq⟩ := eq_of_mem_accepted hmoment
      cases heq
  cases hfires : s.fires with
  | false =>
    have hsame : s.dispatch d event = s := by rw [Session.dispatch, hfires, if_neg Bool.false_ne_true]
    obtain ⟨hpending, hqueue, hnone⟩ := h.idle hfires
    rw [hsame]
    refine ⟨h.site_eq, h.limits_eq, h.running, hsettled, fun htrue => ?_,
      fun _ => ⟨hpending, hqueue, ?_⟩⟩
    · rw [hfires] at htrue
      cases htrue
    · refine List.forall_mem_append.2 ⟨hnone, fun moment hmoment id hrebuild => ?_⟩
      obtain ⟨_, -, rfl⟩ := eq_of_mem_accepted hmoment
      cases hrebuild
  | true =>
    have hdispatch : s.dispatch d event = { s with watcher := s.watcher.dispatch d event } := by
      rw [Session.dispatch, hfires, if_pos rfl]
    rw [hdispatch]
    refine ⟨h.site_eq, h.limits_eq, (Watch.Watcher.running_dispatch _ _ _).trans h.running,
      hsettled, fun _ id hawaited => ?_, fun hfalse => ?_⟩
    · dsimp only
      rw [Watch.Watcher.mem_pending_dispatch h.running]
      cases hproject : event.project? d s.watcher.content with
      | none =>
        rw [hproject, Option.toList_none, List.map_nil, List.append_nil] at hawaited
        exact (h.due hfires id hawaited).imp_left .inr
      | some other =>
        rw [hproject, Option.toList_some, List.map_singleton] at hawaited
        rcases Outstanding.of_concat.1 hawaited with hmoment | ⟨hawaited, -⟩
        · obtain rfl := Moment.accepted.inj hmoment
          exact .inl (.inl rfl)
        · exact (h.due hfires id hawaited).imp_left .inr
    · rw [hfires] at hfalse
      cases hfalse

theorem advance (h : Invariant site limits trace s d) (milliseconds : Nat) :
    Invariant site limits trace (s.advance milliseconds) d where
  site_eq := h.site_eq
  limits_eq := h.limits_eq
  running := h.running
  isSettled := h.isSettled
  due hfires id hawaited := by
    rcases h.due hfires id hawaited with hpending | hqueue
    · rcases (Watch.Debounce.mem_pending_iff_advance milliseconds).1 hpending with hdue | hpending
      · exact .inr (List.mem_append_right _ hdue)
      · exact .inl hpending
    · exact .inr (List.mem_append_left _ hqueue)
  idle hidle := by
    obtain ⟨hpending, hqueue, hnone⟩ := h.idle hidle
    have hnoTimer : s.watcher.debounce.pending = [] := hpending
    have hleap : ∀ id, ¬(id ∈ (s.watcher.debounce.advance milliseconds).1 ∨
        id ∈ (s.watcher.debounce.advance milliseconds).2.pending) := fun id hid => by
      rw [← Watch.Debounce.mem_pending_iff_advance, hnoTimer] at hid
      cases hid
    refine ⟨List.eq_nil_iff_forall_not_mem.2 fun id hid => hleap id (.inr hid),
      List.append_eq_nil_iff.2 ⟨hqueue, ?_⟩, hnone⟩
    exact List.eq_nil_iff_forall_not_mem.2 fun id hid => hleap id (.inl hid)

theorem endRound (h : Invariant site limits trace s d) :
    Invariant site limits (trace ++ rebuildMoments s.site s.limits d s.queue)
      (s.endRound d).1 (s.endRound d).2 where
  site_eq := h.site_eq
  limits_eq := h.limits_eq
  running := h.running
  isSettled := by
    rw [Session.endRound, h.site_eq, h.limits_eq]
    exact isSettled_rebuildAll h.isSettled s.queue
  due hfires id hawaited := by
    have hmoments : ∀ moment ∈ rebuildMoments s.site s.limits d s.queue, moment ≠ .accepted id := by
      rintro moment hmoment rfl
      obtain ⟨_, _, heq⟩ := exists_of_mem_rebuildMoments hmoment
      cases heq
    obtain ⟨hawaited, hnone⟩ := (Outstanding.of_append hmoments).1 hawaited
    refine .inl ((h.due hfires id hawaited).resolve_right fun hid => ?_)
    obtain ⟨moment, hmoment, hrebuild⟩ := exists_isRebuild_iff.2 hid
    exact hnone moment hmoment hrebuild
  idle hidle := by
    obtain ⟨hpending, hqueue, hnone⟩ := h.idle hidle
    rw [hqueue, rebuildMoments, List.append_nil]
    exact ⟨hpending, rfl, hnone⟩

end Invariant

/-- What holds at the start holds throughout a run. -/
theorem Run.invariant (h : Run s₀ d₀ trace s d) (hstart : Invariant site limits [] s₀ d₀) :
    Invariant site limits trace s d := by
  induction h with
  | start => exact hstart
  | write _ hwrite hproject hl ih =>
    rw [ih.site_eq] at hwrite hproject hl
    exact ih.write hwrite hproject hl
  | writeElse _ hwrite hl ih =>
    rw [ih.site_eq] at hwrite hl
    exact ih.writeElse hwrite hl
  | event _ event ih => exact ih.event event
  | advance _ milliseconds ih => exact ih.advance milliseconds
  | endRound _ ih => exact ih.endRound

/-! ## The start -/

/-- A session starts after a build, with no timer. -/
structure Starts (s : Session) (disk d : Disk) : Prop where
  concurrency : 1 ≤ s.site.settings.concurrency
  hasContent : disk.HasDirectory s.site.settings.contentDir
  build : ∃ report, s.site.build s.limits disk = .ok report d
  running : s.watcher.running = true
  pending : s.watcher.pending = []
  queue : s.queue = []

theorem exists_of_startWatching {debounce : Quantity} {report : Site.Report}
    (h : startWatching site limits debounce report d = .watching s) :
    s.site = site ∧ s.limits = limits ∧ s.watcher.running = true ∧ s.watcher.pending = [] ∧
      s.queue = [] := by
  rw [startWatching] at h
  split at h
  · cases h
  · cases h
  · rename_i watcher hwatcher
    obtain rfl := Watch.Watcher.eq_of_start rfl hwatcher
    obtain rfl := Start.watching.inj h
    exact ⟨rfl, rfl, rfl, rfl, rfl⟩

/-- A session starts on a site that is there, after a build that is done. -/
theorem build_of_startOn {debounce : Quantity}
    (h : startOn site limits debounce disk = (.watching s, d)) :
    disk.HasDirectory site.settings.contentDir ∧
      ∃ report, site.build limits disk = .ok report d ∧
        startWatching site limits debounce report d = .watching s := by
  rw [startOn] at h
  split at h
  · cases h
  · cases h
  · rename_i hthere
    refine ⟨Disk.isDirectory_eq_true_iff.1 hthere, ?_⟩
    split at h
    · rename_i report after hbuild
      obtain ⟨hwatching, rfl⟩ := Prod.mk.inj h
      exact ⟨report, hbuild, hwatching⟩
    · cases h

theorem starts_of_start {env : Settings.Environment} {detect : Encoding.Detector}
    {argv : List Text} (h : start env detect argv disk limits = (.watching s, d)) :
    Starts s disk d := by
  rw [start] at h
  split at h
  · cases h
  split at h
  · cases h
  rename_i settings hsettings
  split at h
  · cases h
  obtain ⟨hthere, report, hbuild, hwatching⟩ := build_of_startOn h
  obtain ⟨hsite, hlimits, hrunning, hpending, hqueue⟩ := exists_of_startWatching hwatching
  rw [← hsite] at hthere hbuild
  rw [← hlimits] at hbuild
  have hlimit : 1 ≤ s.site.settings.concurrency := by
    rw [hsite]
    change 1 ≤ settings.concurrency
    exact (Settings.ofEnvironment_eq_ok_iff.1 hsettings).one_le_concurrency
  exact ⟨hlimit, hthere, ⟨report, hbuild⟩, hrunning, hpending, hqueue⟩

theorem Starts.invariant (hstarts : Starts s disk d) (h : s.site.IsApart disk)
    (hlead : s.site.LeadsToOutput disk) : Invariant s.site s.limits [] s d where
  site_eq := rfl
  limits_eq := rfl
  running := hstarts.running
  isSettled := by
    obtain ⟨report, hbuild⟩ := hstarts.build
    exact (Site.isSettled_of_build h hlead hstarts.hasContent hbuild).mono (Set.empty_subset _)
  due _ _ hawaited := hawaited.elim
  idle _ := ⟨hstarts.pending, hstarts.queue, fun _ hmoment => absurd hmoment List.not_mem_nil⟩

/-! ## The end -/

/-- A run with nothing left to do has no stale projects. -/
theorem Invariant.not_isStale (h : Invariant site limits trace s d)
    (hanswered : ∀ id, ¬IsUnanswered trace id) (hpending : s.watcher.pending = [])
    (hqueue : s.queue = []) (hrebuilt : ∀ id, .wrote id ∈ trace → IsRebuilt trace id) (id : Text) :
    ¬IsStale trace id := by
  cases hfires : s.fires with
  | true =>
    refine Watch.not_isStale (hanswered id) (fun hawaited => ?_) (hrebuilt id)
    rcases h.due hfires id hawaited with hmem | hmem
    · rw [hpending] at hmem
      cases hmem
    · rw [hqueue] at hmem
      cases hmem
  | false =>
    -- Nothing is ever rebuilt, so nothing was written.
    obtain ⟨-, -, hnone⟩ := h.idle hfires
    intro hstale
    obtain ⟨moment, hwrote, rfl⟩ := hstale.exists_mem
    obtain ⟨moment, hmoment, rfl⟩ := (hrebuilt id hwrote).exists_mem
    exact hnone _ hmoment id rfl

/-- After a run in which each write to the directory of a project was followed by an event
    for it, with no timer running, all rebuilds done with and the last one of each project
    that was written to done, a build of the whole site keeps the bytes of all files, and
    only the disk can make it fail, or directories below a project that are nested too deeply. -/
theorem build_keeps_bytes_after_run {env : Settings.Environment} {detect : Encoding.Detector}
    {argv : List Text} (hstart : start env detect argv disk limits = (.watching s₀, d₀))
    (hapart : s₀.site.IsApart disk) (hlead : s₀.site.LeadsToOutput disk)
    (hrun : Run s₀ d₀ trace s d) (hanswered : ∀ id, ¬IsUnanswered trace id)
    (hpending : s.watcher.pending = []) (hqueue : s.queue = [])
    (hrebuilt : ∀ id, .wrote id ∈ trace → IsRebuilt trace id) :
    (∀ l, (leftBy (s.site.build s.limits d)).bytesAt l = d.bytesAt l) ∧
      ∀ failure after, s.site.build s.limits d = .error failure after → (∃ e, failure = .disk e) ∨
        failure = .content .tooNested ∧ ∃ id, s.site.content.HasProject d id ∧
          ¬(s.limits.page.Admits (d.depthBelow (s.site.content.directory.child id)) ∧
            s.limits.index.Admits (d.depthBelow (s.site.content.directory.child id))) := by
  have hstarts := starts_of_start hstart
  have h := hrun.invariant (hstarts.invariant hapart hlead)
  have hsettled : s₀.site.IsSettled s₀.limits ∅ d := by
    have hnone := h.not_isStale hanswered hpending hqueue hrebuilt
    exact h.isSettled.mono fun id hstale => hnone id hstale
  rw [h.site_eq, h.limits_eq]
  exact ⟨hsettled.keepsBytes_build,
    fun _ _ hbuild => hsettled.failure_of_build hstarts.concurrency hbuild⟩

/-! ## Single runs -/

/-- Whether the command watches. -/
def Start.isWatching : Start → Bool
  | .watching _ => true
  | .ended _ => false

/-- The session of a command that watches. -/
def Start.sessionD (fallback : Session) : Start → Session
  | .watching s => s
  | .ended _ => fallback

theorem Start.eq_watching {start : Start} (h : start.isWatching = true) (fallback : Session) :
    start = .watching (start.sessionD fallback) := by
  cases start with
  | watching => rfl
  | ended => cases h

/-- The command is started on a disk, to read from `/content`. -/
def startOf (output : String) (disk : Disk) : Start × Disk :=
  start [] (fun _ => none)
    (["--content-dir", "/content", "--output-dir", output].map (·.toList)) disk

/-- The session that has started. -/
def sessionOf (output : String) (disk : Disk) : Session :=
  (startOf output disk).1.sessionD
    ⟨.sample output, .standard, ⟨.ofText [], 0, false, {}⟩, false, [], []⟩

theorem startOf_eq (output : String) (disk : Disk)
    (h : (startOf output disk).1.isWatching = true) :
    startOf output disk = (.watching (sessionOf output disk), (startOf output disk).2) :=
  Prod.ext (Start.eq_watching h _) rfl

/-- A source of a project. -/
def sourceFile : Location := ["content", "a", "a.ino"].map (·.toList)

/-- The session after the start on a disk with a project that is not built. -/
def newSession : Session := sessionOf "/out" Site.unbuilt

/-- The disk after the start. -/
def built : Disk := (startOf "/out" Site.unbuilt).2

/-- The disk when a source is written to the project. -/
def edited : Disk :=
  built.put sourceFile (.file (Encoding.encodeUtf8 "int x;\n".toList) 0)

/-- What happens to the source. -/
def created : Watch.Event := ⟨.created, "/content/a/a.ino".toList, none, false⟩

/-- The session half a second after it has taken this in. -/
def dueSession : Session := (newSession.dispatch edited created).advance 500

/-- What is noted until the project is rebuilt. -/
def editedTrace : List Moment :=
  [.wrote "a".toList, .accepted "a".toList, .rebuilt "a".toList true]

theorem run_edited : startOf "/out" Site.unbuilt = (.watching newSession, built) ∧
    newSession.site.IsApart Site.unbuilt ∧ newSession.site.LeadsToOutput Site.unbuilt ∧
    Run newSession built editedTrace (dueSession.endRound edited).1 (dueSession.endRound edited).2 ∧
    (dueSession.endRound edited).1.watcher.pending = [] := by
  have hfacts : (startOf "/out" Site.unbuilt).1.isWatching = true ∧
      newSession.site.IsApart Site.unbuilt ∧ newSession.site.LeadsToOutput Site.unbuilt ∧
      built.HasPlace sourceFile ∧ built.get? sourceFile ≠ some .directory ∧
      built.resolve newSession.site.settings.contentDir <+: sourceFile ∧
      newSession.site.content.locationOf built "a".toList <+: sourceFile ∧
      edited.HasDirectory (newSession.site.content.directory.child "a".toList) ∧
      edited.isFile ((newSession.site.content.directory.child "a".toList).child
        Content.metadataFile) = .ok true ∧
      [.wrote "a".toList] ++
        (created.project? edited newSession.watcher.content).toList.map Moment.accepted ++
          rebuildMoments dueSession.site dueSession.limits edited dueSession.queue = editedTrace ∧
      (dueSession.endRound edited).1.watcher.pending = [] := by
    decide +kernel
  obtain ⟨hwatching, hapart, hlead, hplace, hfree, hbelow, hl, hdir, hfile, htrace, hpending⟩ := hfacts
  have hstart : startOf "/out" Site.unbuilt = (.watching newSession, built) :=
    startOf_eq "/out" Site.unbuilt hwatching
  have htree := ((starts_of_start hstart).invariant hapart hlead).isSettled.apart.tree
  have hwrite : newSession.site.Writes sourceFile built edited := by
    refine ⟨.put htree hplace hfree hbelow, Disk.changes_put hplace.ne_nil hfree _, ?_, hbelow⟩
    rw [edited, Disk.bytesAt, Disk.get?_put_self _ _ hplace.ne_nil]
    exact Option.some_ne_none _
  have hrun : Run newSession built ([.wrote "a".toList] ++
      (created.project? edited newSession.watcher.content).toList.map Moment.accepted ++
        rebuildMoments dueSession.site dueSession.limits edited dueSession.queue)
      (dueSession.endRound edited).1 (dueSession.endRound edited).2 :=
    .endRound (.advance (.event (.write .start hwrite ⟨by decide, hdir, hfile⟩ hl) created) 500)
  exact ⟨hstart, hapart, hlead, htrace ▸ hrun, hpending⟩

theorem build_keeps_bytes_after_run_edited :
    startOf "/out" Site.unbuilt = (.watching newSession, built) ∧
      newSession.site.IsApart Site.unbuilt ∧ newSession.site.LeadsToOutput Site.unbuilt ∧
      Run newSession built editedTrace (dueSession.endRound edited).1
        (dueSession.endRound edited).2 ∧
      (∀ id, ¬IsUnanswered editedTrace id) ∧
      (dueSession.endRound edited).1.watcher.pending = [] ∧
      (dueSession.endRound edited).1.queue = [] ∧
      (.wrote "a".toList ∈ editedTrace ∧ ∀ id, .wrote id ∈ editedTrace → IsRebuilt editedTrace id) ∧
      ∀ l, (leftBy ((dueSession.endRound edited).1.site.build
          (dueSession.endRound edited).1.limits (dueSession.endRound edited).2)).bytesAt l =
        (dueSession.endRound edited).2.bytesAt l := by
  obtain ⟨hstart, hapart, hlead, hrun, hpending⟩ := run_edited
  have hanswered : ∀ id, ¬IsUnanswered editedTrace id := by
    intro id
    simp [editedTrace, Outstanding]
  have hrebuilt : ∀ id, .wrote id ∈ editedTrace → IsRebuilt editedTrace id := by
    intro id hwrote
    simp only [editedTrace, List.mem_cons, List.not_mem_nil, Moment.wrote.injEq, reduceCtorEq,
      or_false] at hwrote
    subst hwrote
    decide
  have hqueue := dueSession.queue_endRound edited
  exact ⟨hstart, hapart, hlead, hrun, hanswered, hpending, hqueue, ⟨by decide, hrebuilt⟩,
    (build_keeps_bytes_after_run hstart hapart hlead hrun hanswered hpending hqueue hrebuilt).1⟩

/-- A page that was not found at the start, as the path to it went up from a missing
    directory, is still there after the first build, and is taken away by the next. -/
theorem build_takes_page_after_run : ∃ s d, startOf "/x/../out" Site.strayed = (.watching s, d) ∧
    s.site.IsApart Site.strayed ∧ Run s d [] s d ∧ s.watcher.pending = [] ∧ s.queue = [] ∧
      d.bytesAt (d.resolve (s.site.pagePath "b".toList)) ≠ none ∧
      (leftBy (s.site.build s.limits d)).bytesAt (d.resolve (s.site.pagePath "b".toList)) =
        none := by
  have hstart : (startOf "/x/../out" Site.strayed).1.isWatching = true := by decide +kernel
  have hstarts := starts_of_start (startOf_eq _ _ hstart)
  refine ⟨_, _, startOf_eq _ _ hstart, by decide +kernel, .start, hstarts.pending, hstarts.queue, ?_⟩
  decide +kernel

end Marginalia.Command.Watch
