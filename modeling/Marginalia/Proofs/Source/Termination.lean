import Marginalia.Proofs.Source.Automaton

/-!
# Scans that end

A scan moves over a line until it has an outcome. Most moves take characters along, but
a jump over an empty delimiter does not: into a block comment that starts with nothing, or
out of one that ends with nothing. Unless both delimiters are empty, such a jump is
followed by a move that takes a character along, and a rank of the cursor drops with every
move (`rank_lt_of_step`).

* `exists_findComment`: a scan has an outcome unless both delimiters are empty;
* `scan_ends_iff`: if both are empty, a scan goes on for ever, in place, unless the line is
  empty or starts with a line comment; every other scan ends.
-/

namespace Marginalia.Scan

variable {d : Dialect} {s t : Cursor} {line : Text}

/-! ## Moves -/

/-- What a move may be. -/
inductive Move (d : Dialect) (s : Cursor) : Cursor → Prop
  /-- Out of a block comment, over what is left of it and its closing delimiter. -/
  | close (n : Nat) : s.mode = .block → Move d s (s.advance (n + d.blockClose.length) .code)
  /-- Into a block comment, over its opening delimiter. -/
  | enter : s.mode ≠ .block → Move d s (s.advance d.blockOpen.length .block)
  /-- Over some characters outside of block comments. -/
  | skip {n : Nat} {mode : Mode} : 0 < n → s.mode ≠ .block → mode ≠ .block →
    Move d s (s.advance n mode)

/-- A scan moves only while something is left of the line, in one of these ways. -/
theorem move_of_step (h : step d s = .inr t) : s.rest ≠ [] ∧ Move d s t := by
  obtain ⟨mode, before, column, rest⟩ := s
  cases rest with
  | nil => cases mode <;> cases h
  | cons c rest =>
    refine ⟨List.cons_ne_nil c rest, ?_⟩
    cases mode with
    | block =>
      dsimp only [step] at h
      split at h
      · cases h
      next n _ =>
      obtain rfl := Sum.inr.inj h
      exact .close n rfl
    | literal quote =>
      dsimp only [step] at h
      split at h
      · obtain rfl := Sum.inr.inj h
        exact .skip Nat.two_pos Mode.noConfusion Mode.noConfusion
      · obtain rfl := Sum.inr.inj h
        refine .skip Nat.one_pos Mode.noConfusion ?_
        split <;> exact Mode.noConfusion
    | code =>
      dsimp only [step] at h
      split at h
      · cases h
      split at h
      · obtain rfl := Sum.inr.inj h
        exact .enter Mode.noConfusion
      · obtain rfl := Sum.inr.inj h
        refine .skip Nat.one_pos Mode.noConfusion ?_
        split <;> exact Mode.noConfusion

/-! ## The rank of a cursor -/

/-- A bound for the moves to come. Out of a block comment the next move takes a character
    along if the closing delimiter has one; otherwise it may lead back into code in
    place. -/
def Cursor.rank (d : Dialect) (s : Cursor) : Nat :=
  2 * s.rest.length + if s.mode = .block then (if d.blockClose = [] then 2 else 0) else 1

theorem rank_of_eq_block (h : s.mode = .block) :
    s.rank d = 2 * s.rest.length + if d.blockClose = [] then 2 else 0 := by
  rw [Cursor.rank, if_pos h]

theorem rank_of_ne_block (h : s.mode ≠ .block) : s.rank d = 2 * s.rest.length + 1 := by
  rw [Cursor.rank, if_neg h]

theorem length_rest_advance (s : Cursor) (n : Nat) (mode : Mode) :
    (s.advance n mode).rest.length = s.rest.length - n := List.length_drop

/-- Every move lowers the rank. -/
theorem rank_lt_of_step (hd : d.blockOpen ≠ [] ∨ d.blockClose ≠ []) (h : step d s = .inr t) :
    t.rank d < s.rank d := by
  obtain ⟨hrest, hmove⟩ := move_of_step h
  have hlength := List.length_pos_of_ne_nil hrest
  cases hmove with
  | close n hmode =>
    rw [rank_of_eq_block hmode, rank_of_ne_block Mode.noConfusion, length_rest_advance]
    split
    · omega
    next hclose =>
    have := List.length_pos_of_ne_nil hclose
    omega
  | enter hmode =>
    rw [rank_of_ne_block hmode, rank_of_eq_block rfl, length_rest_advance]
    split
    next hclose =>
      have := List.length_pos_of_ne_nil (hd.resolve_right (not_not_intro hclose))
      omega
    · omega
  | skip hn hmode hmode' =>
    rw [rank_of_ne_block hmode, rank_of_ne_block hmode', length_rest_advance]
    omega

/-- As many moves as the rank allows come to an outcome. -/
theorem exists_run (hd : d.blockOpen ≠ [] ∨ d.blockClose ≠ []) {bound : Nat}
    (hrank : s.rank d ≤ bound + 1) : ∃ outcome, run d bound s = some outcome := by
  induction bound generalizing s with
  | zero =>
    cases hstep : step d s with
    | inl outcome => exact ⟨outcome, run_of_outcome hstep 0⟩
    | inr t =>
      -- A rank of one leaves nothing of the line.
      have hlength := List.length_pos_of_ne_nil (move_of_step hstep).1
      rw [Cursor.rank] at hrank
      omega
  | succ bound ih =>
    cases hstep : step d s with
    | inl outcome => exact ⟨outcome, run_of_outcome hstep _⟩
    | inr t =>
      rw [run_of_move hstep]
      have := rank_lt_of_step hd hstep
      exact ih (by omega)

/-- A scan of a line has an outcome unless both block delimiters are empty. -/
theorem exists_findComment (hd : d.blockOpen ≠ [] ∨ d.blockClose ≠ []) (inBlock : Bool)
    (line : Text) : ∃ outcome, findComment d inBlock line = some outcome := by
  refine exists_run hd ?_
  have hrest : (start inBlock line).rest = line := rfl
  rw [Cursor.rank, hrest]
  split
  · split <;> omega
  · omega

/-! ## Scans that go on for ever -/

/-- Nothing ends the scan of the line: between two empty block delimiters it jumps into a
    block comment and out of it in place. -/
structure IsEndless (d : Dialect) (line : Text) : Prop where
  blockOpen : d.blockOpen = []
  blockClose : d.blockClose = []
  ne_nil : line ≠ []
  not_lineComment : ¬d.lineComment <+: line

/-- The cursor after that many moves, if the scan has no outcome before. -/
def cursorAfter (d : Dialect) : Nat → Cursor → Option Cursor
  | 0, s => some s
  | n + 1, s =>
    match step d s with
    | .inl _ => none
    | .inr next => cursorAfter d n next

theorem cursorAfter_of_outcome {o : Outcome} (h : step d s = .inl o) (n : Nat) :
    cursorAfter d (n + 1) s = none := by
  rw [cursorAfter, h]

theorem cursorAfter_of_move (h : step d s = .inr t) (n : Nat) :
    cursorAfter d (n + 1) s = cursorAfter d n t := by
  rw [cursorAfter, h]

/-- A run has no outcome if there is one more move to make. -/
theorem run_eq_none_iff {bound : Nat} :
    run d bound s = none ↔ (cursorAfter d (bound + 1) s).isSome := by
  induction bound generalizing s with
  | zero =>
    cases hstep : step d s with
    | inl outcome => simp [run_of_outcome hstep, cursorAfter_of_outcome hstep]
    | inr t => simp [run, hstep, cursorAfter]
  | succ bound ih =>
    cases hstep : step d s with
    | inl outcome => simp [run_of_outcome hstep, cursorAfter_of_outcome hstep]
    | inr t => rw [run_of_move hstep, cursorAfter_of_move hstep, ih]

/-- Out of a block comment that ends with nothing a scan jumps in place. -/
theorem step_start_block (hclose : d.blockClose = []) (hline : line ≠ []) :
    step d (start true line) = .inr (start false line) := by
  obtain ⟨c, rest, rfl⟩ := List.exists_cons_of_ne_nil hline
  simp only [step, start, if_true]
  rw [hclose, Text.find?, if_pos List.isPrefixOf_nil_left]
  rfl

/-- Into one that starts with nothing it does so, too, unless a line comment comes first. -/
theorem step_start_code (hopen : d.blockOpen = []) (hline : line ≠ [])
    (hcomment : ¬d.lineComment <+: line) : step d (start false line) = .inr (start true line) := by
  obtain ⟨c, rest, rfl⟩ := List.exists_cons_of_ne_nil hline
  rw [← List.isPrefixOf_iff_prefix] at hcomment
  simp only [step, start, Bool.false_eq_true, if_false]
  rw [if_neg hcomment, hopen, if_pos List.isPrefixOf_nil_left]
  rfl

theorem step_start_comment (hline : line ≠ []) (hcomment : d.lineComment <+: line) :
    step d (start false line) = .inl ⟨some 0, false⟩ := by
  obtain ⟨c, rest, rfl⟩ := List.exists_cons_of_ne_nil hline
  rw [← List.isPrefixOf_iff_prefix] at hcomment
  simp only [step, start, Bool.false_eq_true, if_false]
  rw [if_pos hcomment]

/-- An endless scan is in code and in a block comment by turns. -/
theorem IsEndless.cursorAfter_start (h : IsEndless d line) (inBlock : Bool) (n : Nat) :
    cursorAfter d n (start inBlock line) =
      some (start (if n % 2 = 0 then inBlock else !inBlock) line) := by
  induction n generalizing inBlock with
  | zero => rfl
  | succ n ih =>
    have hstep : step d (start inBlock line) = .inr (start (!inBlock) line) := by
      cases inBlock with
      | false => exact step_start_code h.blockOpen h.ne_nil h.not_lineComment
      | true => exact step_start_block h.blockClose h.ne_nil
    rw [cursorAfter_of_move hstep, ih]
    rcases Nat.mod_two_eq_zero_or_one n with hn | hn
    · rw [if_pos hn, if_neg (by omega)]
    · rw [if_neg (by omega), if_pos (by omega), Bool.not_not]

/-- The other scans have an outcome. -/
theorem exists_findComment_of_not_isEndless (h : ¬IsEndless d line) (inBlock : Bool) :
    ∃ outcome, findComment d inBlock line = some outcome := by
  by_cases hd : d.blockOpen ≠ [] ∨ d.blockClose ≠ []
  · exact exists_findComment hd inBlock line
  obtain ⟨hopen, hclose⟩ := not_or.1 hd
  by_cases hline : line = []
  · subst hline
    cases inBlock <;> exact ⟨_, rfl⟩
  have hcomment : d.lineComment <+: line := by
    by_contra hcomment
    exact h ⟨not_not.1 hopen, not_not.1 hclose, hline, hcomment⟩
  have hcode := step_start_comment hline hcomment
  cases inBlock with
  | false => exact ⟨_, run_of_outcome hcode _⟩
  | true =>
    refine ⟨⟨some 0, false⟩, ?_⟩
    rw [findComment, run_of_move (step_start_block (not_not.1 hclose) hline), run_of_outcome hcode]

/-- A scan ends, in whatever state the line starts, unless it is endless. An endless one
    stays at the start of the line, in code and in a block comment by turns. -/
theorem scan_ends_iff (d : Dialect) (inBlock : Bool) (line : Text) :
    ((∃ bound outcome, run d bound (start inBlock line) = some outcome) ↔ ¬IsEndless d line) ∧
      (findComment d inBlock line = none ↔ IsEndless d line) ∧
      (IsEndless d line ↔ ∀ n, cursorAfter d n (start inBlock line) =
        some (start (if n % 2 = 0 then inBlock else !inBlock) line)) := by
  by_cases h : IsEndless d line
  · have hmoves := h.cursorAfter_start inBlock
    have hnone : ∀ bound, run d bound (start inBlock line) = none := fun bound => by
      rw [run_eq_none_iff, hmoves, Option.isSome_some]
    simp only [hnone, hmoves, findComment, h, reduceCtorEq, exists_false, not_true, iff_self,
      implies_true, and_self]
  · obtain ⟨outcome, houtcome⟩ := exists_findComment_of_not_isEndless h inBlock
    refine ⟨iff_of_true ⟨_, outcome, houtcome⟩ h, iff_of_false ?_ h, iff_of_false h fun hmoves => ?_⟩
    · rw [houtcome]
      exact Option.some_ne_none outcome
    · -- A cursor that always moves on comes to no outcome.
      have hnone := run_eq_none_iff.2 (Option.isSome_of_eq_some (hmoves (2 * line.length + 1 + 1)))
      rw [← findComment, houtcome] at hnone
      cases hnone

/-- Block comments that start and end with nothing: a line comment at the start of the line is
    found before the scan jumps, but one further on is never reached. -/
example : findComment { blockOpen := [], blockClose := [] } true "// x".toList =
      some ⟨some 0, false⟩ ∧
    findComment { blockOpen := [], blockClose := [] } true " // x".toList = none := by decide

end Marginalia.Scan
