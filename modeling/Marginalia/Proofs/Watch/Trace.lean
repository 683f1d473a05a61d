import Mathlib.Data.List.Induction
import Marginalia.Text.Basic

/-!
# Traces

What is noted of a run of a watcher, in the order of time: files that are written, events
that are accepted, projects that are rebuilt. Something is outstanding if it has happened
and has not ended since (`Outstanding`). If no write is left without an event, no event
without a rebuild, and the last rebuild was done, then no write is left without a rebuild
that was done (`not_isStale`).
-/

namespace Marginalia.Watch

/-- What is noted of a run. -/
inductive Moment
  /-- A file below the directory of a project was written. -/
  | wrote (id : Text)
  /-- An event was accepted for a project. -/
  | accepted (id : Text)
  /-- A project was rebuilt, or could not be. -/
  | rebuilt (id : Text) (done : Bool)
  deriving DecidableEq, Repr

/-- A moment is of a rebuild of a project, done or not. -/
def Moment.IsRebuild (id : Text) : Moment → Prop
  | .rebuilt other _ => other = id
  | _ => False

instance (id : Text) : DecidablePred (Moment.IsRebuild id)
  | .rebuilt other _ => inferInstanceAs (Decidable (other = id))
  | .wrote _ | .accepted _ => isFalse not_false

/-! ## What is outstanding -/

/-- There is a moment that starts something, and none after it that ends it. -/
def Outstanding (starts ends : Moment → Prop) : List Moment → Prop
  | [] => False
  | moment :: later => starts moment ∧ (∀ m ∈ later, ¬ends m) ∨ Outstanding starts ends later

namespace Outstanding

variable {starts ends : Moment → Prop} {trace moments : List Moment} {moment : Moment}

instance decidable [DecidablePred starts] [DecidablePred ends] :
    (trace : List Moment) → Decidable (Outstanding starts ends trace)
  | [] => isFalse not_false
  | moment :: later =>
    have := decidable later
    inferInstanceAs (Decidable (starts moment ∧ (∀ m ∈ later, ¬ends m) ∨ Outstanding starts ends later))

theorem of_concat : Outstanding starts ends (trace ++ [moment]) ↔
    starts moment ∨ Outstanding starts ends trace ∧ ¬ends moment := by
  induction trace with
  | nil => simp [Outstanding]
  | cons first later ih =>
    rw [List.cons_append, Outstanding, Outstanding, ih, List.forall_mem_append,
      List.forall_mem_singleton]
    tauto

/-- Moments that start nothing may only end what is outstanding. -/
theorem of_append (h : ∀ m ∈ moments, ¬starts m) : Outstanding starts ends (trace ++ moments) ↔
    Outstanding starts ends trace ∧ ∀ m ∈ moments, ¬ends m := by
  induction moments generalizing trace with
  | nil => simp
  | cons moment moments ih =>
    obtain ⟨hmoment, hmoments⟩ := List.forall_mem_cons.1 h
    rw [List.append_cons, ih hmoments, of_concat, List.forall_mem_cons, or_iff_right hmoment, and_assoc]

/-- What is outstanding has happened. -/
theorem exists_mem (h : Outstanding starts ends trace) : ∃ m ∈ trace, starts m := by
  induction trace with
  | nil => cases h
  | cons first later ih =>
    rcases h with ⟨hfirst, -⟩ | h
    · exact ⟨first, List.mem_cons_self, hfirst⟩
    · obtain ⟨m, hm, hstarts⟩ := ih h
      exact ⟨m, List.mem_cons_of_mem _ hm, hstarts⟩

end Outstanding

variable {trace : List Moment} {id : Text}

/-- The directory of a project was written to, and no event was accepted since. -/
abbrev IsUnanswered (trace : List Moment) (id : Text) : Prop :=
  Outstanding (· = .wrote id) (· = .accepted id) trace

/-- An event was accepted for a project, and no rebuild was tried since. -/
abbrev IsAwaited (trace : List Moment) (id : Text) : Prop :=
  Outstanding (· = .accepted id) (Moment.IsRebuild id) trace

/-- The last rebuild of a project was done. -/
abbrev IsRebuilt (trace : List Moment) (id : Text) : Prop :=
  Outstanding (· = .rebuilt id true) (Moment.IsRebuild id) trace

/-- The directory of a project was written to, and no rebuild was done since. -/
abbrev IsStale (trace : List Moment) (id : Text) : Prop :=
  Outstanding (· = .wrote id) (· = .rebuilt id true) trace

/-- The last write is answered by an event, the event by a rebuild, and the last rebuild
    is done. -/
theorem not_isStale (hanswered : ¬IsUnanswered trace id) (hdue : ¬IsAwaited trace id)
    (hrebuilt : .wrote id ∈ trace → IsRebuilt trace id) : ¬IsStale trace id := by
  induction trace using List.reverseRecOn with
  | nil => exact not_false
  | append_singleton trace moment ih =>
    rintro hstale
    rcases Outstanding.of_concat.1 hstale with hwrote | ⟨hstale, hdone⟩
    · exact hanswered (Outstanding.of_concat.2 (.inl hwrote))
    have haccepted : moment ≠ .accepted id := fun h => hdue (Outstanding.of_concat.2 (.inl h))
    have hwrote : .wrote id ∈ trace := by
      obtain ⟨m, hm, rfl⟩ := hstale.exists_mem
      exact hm
    -- A rebuild now would be the last one, and it is not done.
    have hlast := Outstanding.of_concat.1 (hrebuilt (List.mem_append_left _ hwrote))
    obtain ⟨hlast, hrebuild⟩ := hlast.resolve_left hdone
    refine ih (fun h => ?_) (fun h => ?_) (fun _ => hlast) hstale
    · exact hanswered (Outstanding.of_concat.2 (.inr ⟨h, haccepted⟩))
    · exact hdue (Outstanding.of_concat.2 (.inr ⟨h, hrebuild⟩))

end Marginalia.Watch
