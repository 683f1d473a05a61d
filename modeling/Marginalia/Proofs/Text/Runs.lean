import Mathlib.Data.List.TakeWhile
import Marginalia.Proofs.Text.Pieces

/-!
# Runs of characters

The longest parts of a text whose characters all satisfy a condition, in their order. The one
equation for them is that of a text with a character in it that does not satisfy it
(`runs_append_cons`): no run goes past that character. Runs that are joined by such a character
are the runs of what they are joined to (`runs_joinWith`).
-/

namespace Marginalia.Text

/-- The longest runs of characters that satisfy `p`: what is between the others, unless it is
    empty. -/
def runs (p : Char → Bool) (s : Text) : List Text := (s.splitOnP (!p ·)).filter (· ≠ [])

variable {p : Char → Bool} {c : Char} {s t run : Text} {pieces : List Text}

@[simp]
theorem runs_nil (p : Char → Bool) : runs p [] = [] := by
  rw [runs, List.splitOnP_nil]
  rfl

theorem runs_append_cons (hc : ¬p c) (s t : Text) : runs p (s ++ c :: t) = runs p s ++ runs p t := by
  rw [runs, List.splitOnP_append_cons s t (by simpa using hc), List.filter_append, runs, runs]

theorem runs_cons_of_neg (hc : ¬p c) (s : Text) : runs p (c :: s) = runs p s := by
  rw [← List.nil_append (c :: s), runs_append_cons hc, runs_nil, List.nil_append]

theorem runs_of_forall (hne : s ≠ []) (h : ∀ c ∈ s, p c) : runs p s = [s] := by
  rw [runs, List.splitOnP_eq_singleton fun c hc => by simp [h c hc]]
  simp [hne]

/-- A text that is a run and what comes after it has that run first. -/
theorem runs_run_append_cons (hne : s ≠ []) (h : ∀ c ∈ s, p c) (hc : ¬p c) (t : Text) :
    runs p (s ++ c :: t) = s :: runs p t := by
  rw [runs_append_cons hc, runs_of_forall hne h, List.singleton_append]

/-- Induction on the runs of a text: what holds of the rest after a gap, or after a run with the
    character that ends it, holds of the text. -/
@[elab_as_elim]
theorem runs_induction {motive : Text → Prop} (nil : motive [])
    (gap : ∀ c t, ¬p c → motive t → motive (c :: t))
    (last : ∀ s, s ≠ [] → (∀ c ∈ s, p c) → motive s)
    (run : ∀ s c t, s ≠ [] → (∀ c ∈ s, p c) → ¬p c → motive t → motive (s ++ c :: t))
    (s : Text) : motive s := by
  induction hlength : s.length using Nat.strong_induction_on generalizing s with
  | _ n ih =>
    subst hlength
    cases s with
    | nil => exact nil
    | cons first rest =>
      by_cases hfirst : p first
      · have htake : ∀ c ∈ (first :: rest).takeWhile p, p c := fun c hc => List.mem_takeWhile_imp hc
        have hne : (first :: rest).takeWhile p ≠ [] := by
          rw [List.takeWhile_cons_of_pos hfirst]
          exact List.cons_ne_nil _ _
        rw [← List.takeWhile_append_dropWhile (p := p) (l := first :: rest)]
        cases hdrop : (first :: rest).dropWhile p with
        | nil =>
          rw [List.append_nil]
          exact last _ hne htake
        | cons c t =>
          have hc : ¬p c := by
            have hnot := List.head?_dropWhile_not p (first :: rest)
            rw [hdrop] at hnot
            exact Bool.eq_false_iff.1 hnot
          have hshorter : t.length < (first :: rest).length := by
            have hlength := List.length_dropWhile_le p (first :: rest)
            rw [hdrop] at hlength
            exact hlength
          exact run _ c t hne htake hc (ih _ hshorter t rfl)
      · exact gap first rest hfirst (ih _ (Nat.lt_succ_self _) rest rfl)

theorem of_mem_runs (h : run ∈ runs p s) : run ≠ [] ∧ ∀ c ∈ run, p c := by
  induction s using runs_induction (p := p) with
  | nil => cases runs_nil p ▸ h
  | gap c t hc ih => exact ih (runs_cons_of_neg hc t ▸ h)
  | last s hne hs => exact List.mem_singleton.1 (runs_of_forall hne hs ▸ h) ▸ ⟨hne, hs⟩
  | run s c t hne hs hc ih =>
    rw [runs_run_append_cons hne hs hc, List.mem_cons] at h
    rcases h with rfl | h
    · exact ⟨hne, hs⟩
    · exact ih h

theorem mem_of_mem_runs (h : run ∈ runs p s) (hc : c ∈ run) : c ∈ s := by
  induction s using runs_induction (p := p) with
  | nil => cases runs_nil p ▸ h
  | gap d t hd ih => exact List.mem_cons_of_mem _ (ih (runs_cons_of_neg hd t ▸ h))
  | last s hne hs => exact List.mem_singleton.1 (runs_of_forall hne hs ▸ h) ▸ hc
  | run s d t hne hs hd ih =>
    rw [runs_run_append_cons hne hs hd, List.mem_cons] at h
    rcases h with rfl | h
    · exact List.mem_append_left _ hc
    · exact List.mem_append_right _ (List.mem_cons_of_mem _ (ih h))

/-- Joined by a character of no run, runs stay apart. -/
theorem runs_joinWith (hc : ¬p c) (hpieces : ∀ piece ∈ pieces, piece ≠ [] ∧ ∀ d ∈ piece, p d) :
    runs p (joinWith c pieces) = pieces := by
  induction pieces with
  | nil => exact runs_nil p
  | cons first rest ih =>
    rw [List.forall_mem_cons] at hpieces
    cases rest with
    | nil => rw [joinWith_singleton, runs_of_forall hpieces.1.1 hpieces.1.2]
    | cons second rest =>
      rw [joinWith_cons (List.cons_ne_nil _ _), runs_run_append_cons hpieces.1.1 hpieces.1.2 hc,
        ih hpieces.2]

end Marginalia.Text
