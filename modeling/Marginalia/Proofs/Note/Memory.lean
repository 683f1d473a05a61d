import Marginalia.Proofs.Note.Fate

/-!
# Asking for the lines of many notes

What is remembered of the blocks changes no answer, whichever notes were asked
for before. The blocks may lie in each other, cross, coincide or repeat: all that
is needed is that the lines of the notes are lines of the text
(`Pending.IsInText`).

That `spanWith` comes to an end without a limit is part of its definition here. A
limit says it of the search itself: searches are nested no deeper than there are
blocks, so a limit of that many is none.

* `exists_span_of_isInText`: the lines of a note in the text are found;
* `spanWith_of_blocksBefore_le`: a search is not beyond a limit of as many as there
  are blocks;
* `remembered_lines_are_found`: the answers to a series of questions are those to
  each question by itself.
-/

namespace Marginalia.Note

variable {roles : Array Role} {blocks : List Pending} {note : Pending} {memory : Memory}
  {limit : Nat}

/-! ## Notes in the text -/

/-- The markers of the note are on lines of the text, in their order. -/
structure Pending.IsInText (roles : Array Role) (note : Pending) : Prop where
  opened_nonneg : 0 ≤ note.opened
  opened_le_closed : note.opened ≤ note.closed
  closed_lt : note.closed < roles.size

instance (roles : Array Role) (note : Pending) : Decidable (note.IsInText roles) :=
  decidable_of_iff (0 ≤ note.opened ∧ note.opened ≤ note.closed ∧ note.closed < roles.size)
    ⟨fun h => ⟨h.1, h.2.1, h.2.2⟩, fun h => ⟨h.1, h.2, h.3⟩⟩

/-- A note meets no fault in looking for lines by itself. -/
theorem exists_ownSpan_of_isInText {around : Option Pending} (hnote : note.IsInText roles)
    (hform : note.form ≠ .inline) (hbound : searchEnd roles around ≤ roles.size) :
    ∃ found, ownSpan roles note around = .ok found := by
  cases h : note.form with
  | inline => exact absurd h hform
  | line =>
    -- The closing marker of a note of one line may be on another line: it is not looked at.
    have hafter : 0 ≤ note.opened + 1 := by
      have := hnote.opened_nonneg
      omega
    rw [ownSpan_line h]
    obtain ⟨_, hnext, _⟩ | ⟨hnext, _⟩ := nextContent_spec hafter hbound <;>
      exact ⟨_, by rw [hnext]; rfl⟩
  | block =>
    have hplaced : note.IsPlaced roles :=
      ⟨hnote.opened_nonneg, hnote.opened_le_closed, hnote.closed_lt, fun hne => absurd h hne,
        fun hinline => absurd hinline hform⟩
    obtain ⟨found, hfound, _⟩ := exists_ownSpan hplaced hform hbound
    exact ⟨found, hfound⟩

/-- The lines of a note are found, if all notes are in the text. -/
theorem exists_span_of_isInText (hblocks : ∀ b ∈ blocks, b.IsInText roles)
    (hnote : note.IsInText roles) : ∃ found, span roles blocks note = .ok found := by
  -- The note around a note has fewer blocks before it.
  induction hn : note.blocksBefore blocks using Nat.strongRecOn generalizing note with
  | ind n ih =>
    by_cases hform : note.form = .inline
    · exact ⟨_, span_inline hform⟩
    cases h : note.enclosing? blocks with
    | none =>
      have hbound : searchEnd roles none ≤ roles.size := Int.le_refl _
      rw [span_outermost hform h]
      exact exists_ownSpan_of_isInText hnote hform hbound
    | some around =>
      have haround := hblocks around (mem_of_enclosing? h).1
      have hbound : searchEnd roles (some around) ≤ roles.size := Int.le_of_lt haround.closed_lt
      obtain ⟨found, hfound⟩ := exists_ownSpan_of_isInText hnote hform hbound
      rw [span_enclosed hform h, hfound]
      cases found with
      | some own => exact ⟨_, rfl⟩
      | none =>
        obtain ⟨outer, houter⟩ :=
          ih (around.blocksBefore blocks) (hn ▸ Pending.blocksBefore_lt_of_enclosing? h) haround rfl
        exact ⟨inherited around outer, by simp only [bind, Except.bind, houter]; rfl⟩

/-! ## Searches within searches -/

/-- A note is in no more notes than there are blocks opened before it. -/
theorem IsSunk.le_blocksBefore {n : Nat} (h : IsSunk roles blocks n note) :
    n ≤ note.blocksBefore blocks := by
  induction h with
  | surface => exact Nat.zero_le _
  | deeper _ henclosing _ _ ih =>
    exact Nat.succ_le_of_lt (Nat.lt_of_le_of_lt ih
      (Pending.blocksBefore_lt_of_enclosing? henclosing))

/-- Searches are nested no deeper than there are blocks opened before the note. -/
theorem spanWith_of_blocksBefore_le (h : note.blocksBefore blocks ≤ limit) (memory : Memory) :
    spanWith roles blocks (some limit) memory note = spanWith roles blocks none memory note := by
  refine (spanWith_agrees (some limit) memory note).eq_of_not ?_
  rintro fault ⟨-, n, hn, hsunk⟩
  obtain rfl := Option.some.inj hn
  exact absurd hsunk.le_blocksBefore (Nat.not_le.2 (Nat.lt_succ_of_le h))

/-! ## Questions one after another -/

/-- The answers to some questions, each asked with what is remembered from the
    ones before it. -/
def askAll (ask : Memory → Pending → Except Fault (Option Span × Memory)) (memory : Memory) :
    List Pending → Except Fault (List (Option Span) × Memory)
  | [] => return ([], memory)
  | note :: rest => do
    let (found, memory) ← ask memory note
    let (more, memory) ← askAll ask memory rest
    return (found :: more, memory)

/-- Questions are answered as each would be by itself. -/
theorem askAll_spanWith (hblocks : ∀ b ∈ blocks, b.IsInText roles)
    (hmemory : Memory.IsValid roles blocks memory) {asked : List Pending}
    (hasked : ∀ note ∈ asked, note.IsInText roles) :
    ∃ found memory', askAll (spanWith roles blocks none) memory asked = .ok (found, memory') ∧
      List.Forall₂ (fun note lines => span roles blocks note = .ok lines) asked found := by
  induction asked generalizing memory with
  | nil => exact ⟨[], memory, rfl, .nil⟩
  | cons note rest ih =>
    obtain ⟨hnote, hrest⟩ := List.forall_mem_cons.1 hasked
    obtain ⟨memory₁, hvalid, heq⟩ := spanWith_eq hmemory note
    obtain ⟨lines, hlines⟩ := exists_span_of_isInText hblocks hnote
    obtain ⟨found, memory₂, hfound, hall⟩ := ih hvalid hrest
    refine ⟨lines :: found, memory₂, ?_, .cons hlines hall⟩
    rw [askAll, heq, hlines]
    exact congrArg (fun more => more >>= fun p => pure (lines :: p.1, p.2)) hfound

/-- No search is beyond a limit of the number of blocks. -/
theorem askAll_of_length_le (h : blocks.length ≤ limit) (memory : Memory) (asked : List Pending) :
    askAll (spanWith roles blocks (some limit)) memory asked =
      askAll (spanWith roles blocks none) memory asked := by
  have hask : spanWith roles blocks (some limit) = spanWith roles blocks none := by
    funext memory note
    exact spanWith_of_blocksBefore_le (Nat.le_trans List.countP_le_length h) memory
  rw [hask]

/-- Notes of the text can be asked for in any order and as often as one likes.
    Each search comes to an end, and the lines it finds are those of the plain
    recursion, which remembers nothing. -/
theorem remembered_lines_are_found (roles : Array Role) (pending asked : List Pending)
    (hpending : ∀ note ∈ pending, note.IsInText roles)
    (hasked : ∀ note ∈ asked, note.IsInText roles) :
    ∃ found memory,
      askAll (spanWith roles (blocksOf pending) none) [] asked = .ok (found, memory) ∧
      List.Forall₂ (fun note lines => span roles (blocksOf pending) note = .ok lines) asked found ∧
      ∀ limit, (blocksOf pending).length ≤ limit →
        askAll (spanWith roles (blocksOf pending) (some limit)) [] asked = .ok (found, memory) := by
  have hblocks : ∀ b ∈ blocksOf pending, b.IsInText roles :=
    fun b hb => hpending b (List.mem_of_mem_filter hb)
  obtain ⟨found, memory, hfound, hall⟩ := askAll_spanWith hblocks Memory.isValid_nil hasked
  refine ⟨found, memory, hfound, hall, fun limit hlimit => ?_⟩
  rw [askAll_of_length_le hlimit, hfound]

/-- Notes on the lines 0 to 7 of a text: a block in another without a kept line,
    one across the end of the outer, one twice, and a note of one line. -/
def tangledNotes : List Pending :=
  [⟨.block, 1, 2, [], none, 1, none⟩, ⟨.block, 0, 3, [], none, 0, none⟩,
    ⟨.block, 2, 6, [], none, 0, none⟩, ⟨.block, 0, 3, [], none, 0, none⟩,
    ⟨.line, 3, 3, [], none, 0, none⟩]

/-- The lines of such a text: only 4, 5 and 7 are code. -/
def tangledRoles : Array Role :=
  #[.opening none [], .opening none [], .closing none, .note [], .plain ['a'] none,
    .plain ['b'] none, .closing none, .plain ['c'] none]

theorem remembered_lines_are_found_tangled :
    (∀ note ∈ tangledNotes, note.IsInText tangledRoles) ∧
    (∀ note ∈ tangledNotes.reverse ++ tangledNotes, note.IsInText tangledRoles) ∧
    ∃ found memory,
      askAll (spanWith tangledRoles (blocksOf tangledNotes) none) []
        (tangledNotes.reverse ++ tangledNotes) = .ok (found, memory) ∧
      List.Forall₂ (fun note lines => span tangledRoles (blocksOf tangledNotes) note = .ok lines)
        (tangledNotes.reverse ++ tangledNotes) found ∧
      ∀ limit, (blocksOf tangledNotes).length ≤ limit →
        askAll (spanWith tangledRoles (blocksOf tangledNotes) (some limit)) []
          (tangledNotes.reverse ++ tangledNotes) = .ok (found, memory) :=
  have hnotes : ∀ note ∈ tangledNotes, note.IsInText tangledRoles := by decide
  have hasked : ∀ note ∈ tangledNotes.reverse ++ tangledNotes, note.IsInText tangledRoles := by
    decide
  ⟨hnotes, hasked, remembered_lines_are_found tangledRoles tangledNotes _ hnotes hasked⟩

-- One search in another is enough here: a block without a kept line shares the lines of
-- the block around it, which are past its end.
example :
    (askAll (spanWith tangledRoles (blocksOf tangledNotes) (some 1)) [] tangledNotes).map (·.1) =
      .ok [some ⟨4, 5⟩, some ⟨4, 5⟩, some ⟨4, 5⟩, some ⟨4, 5⟩, some ⟨4, 4⟩] := by
  decide +kernel

end Marginalia.Note
