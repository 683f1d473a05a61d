import Marginalia.Proofs.Note.Search
import Marginalia.Proofs.Result

/-!
# The lines of a note

The lines that a note is meant to be on are told by a plain recursion to the note
around it (`span`), which remembers nothing and has no limit.

A note whose lines exist (`IsPlaced`) has no trouble finding the lines it is on.
There are three things it can find by itself (`Finds`), and from these and the
lines of the note around it all it is on follows (`IsOn`).

* `exists_span`: the search for the lines of a note meets no fault;
* `IsOn.isShown`: the lines of a note are displayed, the first not after the last;
* `IsOn.of_encloses`: a note around kept lines is on these;
* `IsOn.within`: a note is on lines of the note around it, and on none if that
  is on none.
-/

namespace Marginalia.Note

/-- The lines of a note, by recursion to the note around it. -/
def span (roles : Array Role) (blocks : List Pending) (note : Pending) :
    Except Fault (Option Span) :=
  if note.form = .inline then return some (.single note.opened)
  else
    match _h : note.enclosing? blocks with
    | none => ownSpan roles note none
    | some around => do
      match ← ownSpan roles note (some around) with
      | some own => return some own
      | none => return inherited around (← span roles blocks around)
termination_by note.blocksBefore blocks
decreasing_by exact Pending.blocksBefore_lt_of_enclosing? ‹_›

/-- The lines of the note exist, and are what notes of its form have. -/
structure Pending.IsPlaced (roles : Array Role) (note : Pending) : Prop where
  opened_nonneg : 0 ≤ note.opened
  opened_le_closed : note.opened ≤ note.closed
  closed_lt : note.closed < roles.size
  of_ne_block : note.form ≠ .block → note.opened = note.closed
  of_inline : note.form = .inline → LineIs Role.isKept roles note.opened

/-- The first and the last line are displayed and in order. -/
structure Span.IsShown (roles : Array Role) (span : Span) : Prop where
  first_le_last : span.first ≤ span.last
  first : LineIs Role.isKept roles span.first
  last : LineIs Role.isKept roles span.last

/-- There is a kept line between the markers of the note. -/
def Pending.Encloses (roles : Array Role) (note : Pending) (line : Int) : Prop :=
  note.opened < line ∧ line < note.closed ∧ LineIs Role.isKept roles line

/-- What a note finds by itself, looking no further than the bound. -/
inductive Finds (roles : Array Role) (note : Pending) (before : Int) : Option Span → Prop
  /-- The kept lines between its markers. -/
  | enclosed {first last : Int} : first ≤ last → note.Encloses roles first →
      note.Encloses roles last → (∀ k, note.Encloses roles k → first ≤ k ∧ k ≤ last) →
      Finds roles note before (some ⟨first, last⟩)
  /-- Some lines after it. -/
  | following {first last : Int} : (∀ k, ¬note.Encloses roles k) → note.closed < first →
      first ≤ last → last < before → LineIs Role.isContent roles first →
      LineIs Role.isContent roles last → Finds roles note before (some ⟨first, last⟩)
  /-- No line at all. -/
  | nothing : (∀ k, ¬note.Encloses roles k) →
      (∀ k, note.closed < k → k < before → ¬LineIs Role.isContent roles k) →
      Finds roles note before none

/-- Where a note stops looking for lines. -/
def searchEnd (roles : Array Role) (around : Option Pending) : Int :=
  (around.map (·.closed)).getD roles.size

variable {roles : Array Role} {blocks : List Pending} {note around : Pending}

theorem ownSpan_line {around : Option Pending} (hform : note.form = .line) :
    ownSpan roles note around = (Option.map Span.single <$> nextContent roles (note.opened + 1)
      (linesUpTo (note.opened + 1) (searchEnd roles around))) := by
  rw [ownSpan, hform]
  rfl

theorem ownSpan_block {around : Option Pending} (hform : note.form = .block) :
    ownSpan roles note around = (do
      let enclosed ← keptLines roles (note.opened + 1) (linesUpTo (note.opened + 1) note.closed)
      match Span.ofLines? enclosed with
      | some span => return some span
      | none =>
        match ← nextContent roles (note.closed + 1)
          (linesUpTo (note.closed + 1) (searchEnd roles around)) with
        | none => return none
        | some start =>
          let last ← paragraphEnd roles start (linesUpTo (start + 1) (searchEnd roles around))
          return some ⟨start, last⟩) := by
  rw [ownSpan, hform]
  rfl

theorem exists_ownSpan {around : Option Pending} (hnote : note.IsPlaced roles)
    (hform : note.form ≠ .inline) (hbound : searchEnd roles around ≤ roles.size) :
    ∃ found, ownSpan roles note around = .ok found ∧
      Finds roles note (searchEnd roles around) found := by
  have h0 := hnote.opened_nonneg
  have hle := hnote.opened_le_closed
  have hlt := hnote.closed_lt
  have hafter : 0 ≤ note.closed + 1 := by omega
  have hnext := nextContent_spec hafter hbound
  cases hf : note.form with
  | inline => exact absurd hf hform
  | line =>
    have heq := hnote.of_ne_block (by rw [hf]; decide)
    have hnone : ∀ k, ¬note.Encloses roles k := fun k hk => by
      have := hk.1
      have := hk.2.1
      omega
    rw [ownSpan_line hf, heq]
    rcases hnext with ⟨next, hnext, hafter, hbefore, hcontent, _⟩ | ⟨hnext, hrest⟩
    · rw [hnext]
      exact ⟨_, rfl, .following hnone (by omega) (Int.le_refl _) hbefore hcontent hcontent⟩
    · rw [hnext]
      exact ⟨_, rfl, .nothing hnone fun k hk hkb => hrest k (by omega) hkb⟩
  | block =>
    have hwithin : 0 ≤ note.opened + 1 := by omega
    obtain ⟨lines, hlines, hcases⟩ := ofLines?_keptLines_spec hwithin (Int.le_of_lt hlt)
    rw [ownSpan_block hf, hlines]
    rcases hcases with ⟨rfl, hnone⟩ | ⟨first, last, hspan, hfirst, hfl, hlast, hkf, hkl, hall⟩
    · -- Nothing is kept between the markers, so the note looks past them.
      have hnone : ∀ k, ¬note.Encloses roles k := fun k hk => hnone k (by have := hk.1; omega) hk.2.1 hk.2.2
      rcases hnext with ⟨next, hnext, hafter, hbefore, hcontent, _⟩ | ⟨hnext, hrest⟩
      · obtain ⟨last, hlast, hle', hlt', hparagraph, _⟩ :=
          paragraphEnd_spec (by omega) hbefore hbound
        have hcl : LineIs Role.isContent roles last := by
          rcases Int.le_iff_lt_or_eq.1 hle' with h | rfl
          · exact hparagraph last h (Int.le_refl _)
          · exact hcontent
        refine ⟨some ⟨next, last⟩, ?_, .following hnone (by omega) hle' hlt' hcontent hcl⟩
        simp only [bind, Except.bind, Span.ofLines?, hnext, hlast]
        rfl
      · refine ⟨none, ?_, .nothing hnone fun k hk hkb => hrest k (by omega) hkb⟩
        simp only [bind, Except.bind, Span.ofLines?, hnext]
        rfl
    · refine ⟨some ⟨first, last⟩, ?_, .enclosed hfl ⟨by omega, by omega, hkf⟩
        ⟨by omega, by omega, hkl⟩ fun k hk => hall k (by have := hk.1; omega) hk.2.1 hk.2.2⟩
      simp only [bind, Except.bind, hspan]
      rfl

/-! ## Notes around notes -/

/-- The lines a note is on. -/
inductive IsOn (roles : Array Role) (blocks : List Pending) : Pending → Option Span → Prop
  /-- Its own line. -/
  | inline {note : Pending} : note.form = .inline →
      IsOn roles blocks note (some (.single note.opened))
  /-- What it finds by itself, with no note around it. -/
  | outermost {note : Pending} {found : Option Span} : note.form ≠ .inline →
      note.enclosing? blocks = none → Finds roles note roles.size found →
      IsOn roles blocks note found
  /-- What it finds before the end of the note around it. -/
  | own {note around : Pending} {span : Span} : note.form ≠ .inline →
      note.enclosing? blocks = some around → Finds roles note around.closed (some span) →
      IsOn roles blocks note (some span)
  /-- What it takes from the note around it. -/
  | inherited {note around : Pending} {outer : Option Span} : note.form ≠ .inline →
      note.enclosing? blocks = some around → Finds roles note around.closed none →
      span roles blocks around = .ok outer → IsOn roles blocks around outer →
      IsOn roles blocks note (Note.inherited around outer)

theorem span_inline (hform : note.form = .inline) :
    span roles blocks note = .ok (some (.single note.opened)) := by
  rw [span, if_pos hform]
  rfl

theorem span_outermost (hform : note.form ≠ .inline) (h : note.enclosing? blocks = none) :
    span roles blocks note = ownSpan roles note none := by
  rw [span, if_neg hform]
  split
  · rfl
  · rename_i h'
    rw [h] at h'
    cases h'

theorem span_enclosed (hform : note.form ≠ .inline) (h : note.enclosing? blocks = some around) :
    span roles blocks note = (do
      match ← ownSpan roles note (some around) with
      | some own => return some own
      | none => return Note.inherited around (← span roles blocks around)) := by
  rw [span, if_neg hform]
  split
  · rename_i h'
    rw [h] at h'
    cases h'
  · rename_i h'
    obtain rfl := Option.some.inj (h.symm.trans h')
    rfl

theorem mem_of_enclosing? (h : note.enclosing? blocks = some around) :
    around ∈ blocks ∧ around.opened < note.opened ∧ note.closed < around.closed := by
  obtain ⟨hmem, hinside⟩ := List.mem_filter.1 (Pending.mem_of_tightest? h)
  simp only [Pending.isInside, Bool.and_eq_true, decide_eq_true_eq] at hinside
  exact ⟨hmem, hinside⟩

/-- The lines of a note are found, if all lines of notes exist. -/
theorem exists_span (hblocks : ∀ b ∈ blocks, b.IsPlaced roles) (hnote : note.IsPlaced roles) :
    ∃ found, span roles blocks note = .ok found ∧ IsOn roles blocks note found := by
  -- The note around a note has fewer blocks before it.
  induction hn : note.blocksBefore blocks using Nat.strongRecOn generalizing note with
  | ind n ih =>
    by_cases hform : note.form = .inline
    · exact ⟨_, span_inline hform, .inline hform⟩
    cases h : note.enclosing? blocks with
    | none =>
      have hbound : searchEnd roles none ≤ roles.size := Int.le_refl _
      obtain ⟨found, hfound, hfinds⟩ := exists_ownSpan hnote hform hbound
      exact ⟨found, (span_outermost hform h).trans hfound, .outermost hform h hfinds⟩
    | some around =>
      obtain ⟨hmem, _⟩ := mem_of_enclosing? h
      have hbound : searchEnd roles (some around) ≤ roles.size :=
        Int.le_of_lt (hblocks around hmem).closed_lt
      obtain ⟨found, hfound, hfinds⟩ := exists_ownSpan hnote hform hbound
      rw [span_enclosed hform h, hfound]
      cases found with
      | some own => exact ⟨_, rfl, .own hform h hfinds⟩
      | none =>
        obtain ⟨outer, houter, hon⟩ := ih (around.blocksBefore blocks)
          (hn ▸ Pending.blocksBefore_lt_of_enclosing? h) (hblocks around hmem) rfl
        simp only [bind, Except.bind, houter]
        exact ⟨_, rfl, .inherited hform h hfinds houter hon⟩

theorem Finds.isShown {before : Int} {span : Span} (h : Finds roles note before (some span)) :
    span.IsShown roles := by
  cases h with
  | enclosed hle hfirst hlast => exact ⟨hle, hfirst.2.2, hlast.2.2⟩
  | following _ _ hle _ hfirst hlast => exact ⟨hle, hfirst.isKept, hlast.isKept⟩

/-- The lines a note is on are displayed. -/
theorem IsOn.isShown {found : Option Span} (h : IsOn roles blocks note found)
    (hnote : note.IsPlaced roles) (hblocks : ∀ b ∈ blocks, b.IsPlaced roles) :
    ∀ span, found = some span → span.IsShown roles := by
  induction h with
  | inline hform =>
    rintro _ ⟨rfl⟩
    exact ⟨Int.le_refl _, hnote.of_inline hform, hnote.of_inline hform⟩
  | outermost _ _ hfinds =>
    rintro span rfl
    exact hfinds.isShown
  | own _ _ hfinds =>
    rintro _ ⟨rfl⟩
    exact hfinds.isShown
  | @inherited note around outer _ h _ _ _ ih =>
    intro span hspan
    cases outer with
    | none => cases hspan
    | some outer =>
      have hshown := ih (hblocks around (mem_of_enclosing? h).1) outer rfl
      rw [Note.inherited] at hspan
      split at hspan
      · obtain rfl := Option.some.inj hspan
        exact hshown
      · obtain rfl := Option.some.inj hspan
        exact ⟨Int.le_refl _, hshown.last, hshown.last⟩

/-- The first and the last of the kept lines between the markers of a note. -/
structure Pending.IsFilledBy (roles : Array Role) (note : Pending) (span : Span) : Prop where
  first : note.Encloses roles span.first
  last : note.Encloses roles span.last
  all : ∀ k, note.Encloses roles k → span.first ≤ k ∧ k ≤ span.last

theorem Finds.isFilledBy {before line : Int} {found : Option Span}
    (h : Finds roles note before found) (hline : note.Encloses roles line) :
    ∃ span, found = some span ∧ note.IsFilledBy roles span := by
  cases h with
  | enclosed _ hfirst hlast hall => exact ⟨_, rfl, hfirst, hlast, hall⟩
  | following hnone => exact absurd hline (hnone line)
  | nothing hnone => exact absurd hline (hnone line)

/-- A note around kept lines is on these, wherever it is. -/
theorem IsOn.of_encloses {line : Int} {found : Option Span} (h : IsOn roles blocks note found)
    (hnote : note.IsPlaced roles) (hline : note.Encloses roles line) :
    ∃ span, found = some span ∧ note.IsFilledBy roles span := by
  cases h with
  | inline hform =>
    have := hnote.of_ne_block (by rw [hform]; decide)
    have := hline.1
    have := hline.2.1
    omega
  | outermost _ _ hfinds | own _ _ hfinds => exact hfinds.isFilledBy hline
  | inherited _ _ hfinds =>
    obtain ⟨span, hspan, _⟩ := hfinds.isFilledBy hline
    cases hspan

/-- The lines a note finds before the end of the note around it are between the
    markers of that note. -/
theorem Finds.encloses {span : Span} (h : Finds roles note around.closed (some span))
    (hopened : around.opened < note.opened) (hclosed : note.closed < around.closed)
    (hnote : note.IsPlaced roles) :
    around.Encloses roles span.first ∧ around.Encloses roles span.last := by
  have hle := hnote.opened_le_closed
  cases h with
  | enclosed _ hfirst hlast =>
    exact ⟨⟨Int.lt_trans hopened hfirst.1, Int.lt_trans hfirst.2.1 hclosed, hfirst.2.2⟩,
      ⟨Int.lt_trans hopened hlast.1, Int.lt_trans hlast.2.1 hclosed, hlast.2.2⟩⟩
  | @following first last _ hfirst hle' hlast hcf hcl =>
    have hfirst' : around.opened < first := by omega
    have hlast' : first < around.closed := by omega
    exact ⟨⟨hfirst', hlast', hcf.isKept⟩,
      ⟨Int.lt_of_lt_of_le hfirst' hle', hlast, hcl.isKept⟩⟩

/-- A note is on lines of the note around it, and on none exactly if that is on
    none. -/
theorem IsOn.within {found outer : Option Span} (h : IsOn roles blocks note found)
    (hnote : note.IsPlaced roles) (hblocks : ∀ b ∈ blocks, b.IsPlaced roles)
    (haround : note.enclosing? blocks = some around)
    (houter : span roles blocks around = .ok outer) (hon : IsOn roles blocks around outer) :
    (found = none ↔ outer = none) ∧ ∀ span span', found = some span → outer = some span' →
      span'.first ≤ span.first ∧ span.last ≤ span'.last := by
  obtain ⟨hmem, hopened, hclosed⟩ := mem_of_enclosing? haround
  -- Lines between the markers of the note around it are on the lines of that note.
  have hbetween : ∀ span : Span, around.Encloses roles span.first → around.Encloses roles span.last →
      (some span = none ↔ outer = none) ∧ ∀ s s' : Span, some span = some s →
        outer = some s' → s'.first ≤ s.first ∧ s.last ≤ s'.last := by
    intro span hfirst hlast
    obtain ⟨filled, rfl, hfilled⟩ := hon.of_encloses (hblocks around hmem) hfirst
    refine ⟨by simp, ?_⟩
    rintro s s' ⟨rfl⟩ ⟨rfl⟩
    exact ⟨(hfilled.all _ hfirst).1, (hfilled.all _ hlast).2⟩
  cases h with
  | inline hform =>
    have hsame := hnote.of_ne_block (by rw [hform]; decide)
    have hline : around.Encloses roles note.opened :=
      ⟨hopened, hsame ▸ hclosed, hnote.of_inline hform⟩
    exact hbetween _ hline hline
  | outermost _ hnone =>
    rw [haround] at hnone
    cases hnone
  | own _ haround' hfinds =>
    obtain rfl := Option.some.inj (haround.symm.trans haround')
    obtain ⟨hfirst, hlast⟩ := hfinds.encloses hopened hclosed hnote
    exact hbetween _ hfirst hlast
  | inherited _ haround' _ houter' =>
    obtain rfl := Option.some.inj (haround.symm.trans haround')
    obtain rfl := Except.ok.inj (houter.symm.trans houter')
    -- What it takes is all of the lines of the note around it, or the last of them.
    cases outer with
    | none => exact ⟨Iff.rfl, fun _ _ h => nomatch h⟩
    | some span =>
      have hle := (hon.isShown (hblocks around hmem) hblocks span rfl).first_le_last
      rw [Note.inherited]
      split
      · refine ⟨by simp, ?_⟩
        rintro s s' ⟨rfl⟩ ⟨rfl⟩
        exact ⟨Int.le_refl _, Int.le_refl _⟩
      · refine ⟨by simp, ?_⟩
        rintro s s' ⟨rfl⟩ ⟨rfl⟩
        exact ⟨hle, Int.le_refl _⟩

end Marginalia.Note
