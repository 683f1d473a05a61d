import Marginalia.Proofs.Note.Span

/-!
# The lines after a note

A note without a block around it and without a kept line between its markers looks
for its lines past them, to the end of the text. It finds the next line with code
(`IsNext`) and, if it is a block, the lines with code that follow that line without
a gap (`IsParagraph`).

* `findsNext_of_span`: this is all such a note can be on, and it is on no line only
  if there is no line with code after it.
-/

namespace Marginalia.Note

/-- The line is the next one with code past the last marker of the note. -/
structure Pending.IsNext (roles : Array Role) (note : Pending) (line : Int) : Prop where
  after : note.closed < line
  content : LineIs Role.isContent roles line
  first : ∀ k, note.closed < k → k < line → ¬LineIs Role.isContent roles k

/-- All lines of the span have code, and the line after it has none. -/
structure Span.IsParagraph (roles : Array Role) (span : Span) : Prop where
  first_le_last : span.first ≤ span.last
  content : ∀ k, span.first ≤ k → k ≤ span.last → LineIs Role.isContent roles k
  ended : ¬LineIs Role.isContent roles (span.last + 1)

/-- What a note finds past its markers. -/
inductive FindsNext (roles : Array Role) (note : Pending) : Option Span → Prop
  | nothing : (∀ k, note.closed < k → ¬LineIs Role.isContent roles k) →
      FindsNext roles note none
  | line {line : Int} : note.form = .line → note.IsNext roles line →
      FindsNext roles note (some (.single line))
  | paragraph {span : Span} : note.form = .block → note.IsNext roles span.first →
      span.IsParagraph roles → FindsNext roles note (some span)

variable {roles : Array Role} {blocks : List Pending} {note : Pending} {found : Option Span}
  {test : Role → Bool} {line : Int}

theorem LineIs.lt_size (h : LineIs test roles line) : line < roles.size := by
  obtain ⟨i, role, rfl, hi, _⟩ := h
  have := (Array.getElem?_eq_some_iff.1 hi).1
  omega

/-- The search for code past a note finds the next line with code, if there is one. -/
theorem nextContent_after (hnote : note.IsPlaced roles) :
    (∃ next, nextContent roles (note.closed + 1) (linesUpTo (note.closed + 1) roles.size) =
        .ok (some next) ∧ note.IsNext roles next) ∨
      (nextContent roles (note.closed + 1) (linesUpTo (note.closed + 1) roles.size) = .ok none ∧
        ∀ k, note.closed < k → ¬LineIs Role.isContent roles k) := by
  have h0 := hnote.opened_nonneg
  have hle := hnote.opened_le_closed
  have hstart : 0 ≤ note.closed + 1 := by omega
  rcases nextContent_spec hstart (Int.le_refl _) with
    ⟨next, hnext, hafter, _, hcontent, hfirst⟩ | ⟨hnone, hrest⟩
  · exact .inl ⟨next, hnext, by omega, hcontent, fun k hk => hfirst k (by omega)⟩
  · exact .inr ⟨hnone, fun k hk hcontent => hrest k (by omega) hcontent.lt_size hcontent⟩

/-- The lines with code from a line with code on. -/
theorem exists_paragraphEnd (h0 : 0 ≤ line) (h : LineIs Role.isContent roles line) :
    ∃ last, paragraphEnd roles line (linesUpTo (line + 1) roles.size) = .ok last ∧
      Span.IsParagraph roles ⟨line, last⟩ := by
  obtain ⟨last, hlast, hle, _, hcontent, hended⟩ :=
    paragraphEnd_spec h0 h.lt_size (Int.le_refl _)
  refine ⟨last, hlast, hle, fun k hk hkl => ?_, fun hnext => hended hnext.lt_size hnext⟩
  rcases Int.le_iff_lt_or_eq.1 hk with hk | rfl
  · exact hcontent k hk hkl
  · exact h

theorem exists_ownSpan_next (hnote : note.IsPlaced roles) (hform : note.form ≠ .inline)
    (hnone : ∀ k, ¬note.Encloses roles k) :
    ∃ found, ownSpan roles note none = .ok found ∧ FindsNext roles note found := by
  have h0 := hnote.opened_nonneg
  have hle := hnote.opened_le_closed
  have hlt := hnote.closed_lt
  have hend : searchEnd roles none = roles.size := rfl
  cases hf : note.form with
  | inline => exact absurd hf hform
  | line =>
    have hsame := hnote.of_ne_block (by rw [hf]; decide)
    rw [ownSpan_line hf, hsame, hend]
    rcases nextContent_after hnote with ⟨next, hnext, his⟩ | ⟨hnext, hrest⟩
    · rw [hnext]
      exact ⟨_, rfl, .line hf his⟩
    · rw [hnext]
      exact ⟨_, rfl, .nothing hrest⟩
  | block =>
    have hwithin : 0 ≤ note.opened + 1 := by omega
    obtain ⟨lines, hlines, hcases⟩ := ofLines?_keptLines_spec hwithin (Int.le_of_lt hlt)
    obtain ⟨rfl, _⟩ := hcases.resolve_right fun ⟨first, last, _, hfirst, hle', hlast, hkept, _⟩ =>
      hnone first ⟨by omega, by omega, hkept⟩
    rw [ownSpan_block hf, hlines, hend]
    rcases nextContent_after hnote with ⟨next, hnext, his⟩ | ⟨hnext, hrest⟩
    · have hafter := his.after
      obtain ⟨last, hlast, hparagraph⟩ := exists_paragraphEnd (by omega) his.content
      refine ⟨some ⟨next, last⟩, ?_, .paragraph hf his hparagraph⟩
      simp only [bind, Except.bind, Span.ofLines?, hnext, hlast]
      rfl
    · refine ⟨none, ?_, .nothing hrest⟩
      simp only [bind, Except.bind, Span.ofLines?, hnext]
      rfl

/-- A note in no block and around no kept line is on the next lines with code. -/
theorem findsNext_of_span (hnote : note.IsPlaced roles) (hform : note.form ≠ .inline)
    (hnone : ∀ k, ¬note.Encloses roles k) (hout : ∀ block ∈ blocks, ¬note.isInside block)
    (h : span roles blocks note = .ok found) : FindsNext roles note found := by
  have henclosing : note.enclosing? blocks = none := by
    rw [Pending.enclosing?, List.filter_eq_nil_iff.2 hout]
    rfl
  obtain ⟨found', hown, hfinds⟩ := exists_ownSpan_next hnote hform hnone
  rw [span_outermost hform henclosing, hown] at h
  obtain rfl := Except.ok.inj h
  exact hfinds

end Marginalia.Note
