import Mathlib.Data.List.Forall2
import Mathlib.Data.List.TakeWhile
import Marginalia.Text.Dedent

/-!
# The common indentation of lines

The margin of lines is the longest indentation they all share, lines of spaces and tabs
only not counting (`isMargin_iff`). Dedenting takes just this from each line
(`isDedented_iff`).
-/

namespace Marginalia.Text

variable {m s t : Text} {lines short : List Text}

/-! ## Common starts -/

theorem isPrefix_commonStart_iff : m <+: commonStart s t ↔ m <+: s ∧ m <+: t := by
  induction s generalizing m t with
  | nil =>
    change m <+: [] ↔ _
    exact ⟨fun h => ⟨h, List.prefix_nil.1 h ▸ List.nil_prefix⟩, And.left⟩
  | cons a s ih =>
    cases t with
    | nil =>
      change m <+: [] ↔ _
      exact ⟨fun h => ⟨List.prefix_nil.1 h ▸ List.nil_prefix, h⟩, And.right⟩
    | cons b t =>
      cases m with
      | nil => simp only [List.nil_prefix, and_self]
      | cons c m =>
        rw [commonStart, List.cons_prefix_cons, List.cons_prefix_cons]
        split
        · rename_i hab
          subst hab
          rw [List.cons_prefix_cons, ih, and_and_left]
        · rename_i hab
          exact ⟨fun h => absurd (List.prefix_nil.1 h) (List.cons_ne_nil _ _),
            fun ⟨⟨ha, _⟩, hb, _⟩ => absurd (ha.symm.trans hb) hab⟩

theorem isPrefix_foldl_commonStart_iff {starts : List Text} :
    m <+: starts.foldl commonStart s ↔ ∀ start ∈ s :: starts, m <+: start := by
  induction starts generalizing s with
  | nil => simp
  | cons start starts ih =>
    rw [List.foldl_cons, ih]
    simp only [List.forall_mem_cons, isPrefix_commonStart_iff, and_assoc]

theorem isPrefix_indentation_iff :
    m <+: indentation s ↔ (∀ c ∈ m, isSpaceOrTab c = true) ∧ m <+: s := by
  constructor
  · intro h
    exact ⟨fun c hc => List.mem_takeWhile_imp (h.subset hc), h.trans (List.takeWhile_prefix _)⟩
  · rintro ⟨hm, rest, rfl⟩
    rw [indentation, List.takeWhile_append_of_pos hm]
    exact List.prefix_append ..

/-! ## The margin -/

/-- An indentation that all lines start with, but for those of spaces and tabs only. -/
structure IsShared (m : Text) (lines : List Text) : Prop where
  isSpaceOrTab : ∀ c ∈ m, isSpaceOrTab c = true
  isPrefix : ∀ line ∈ lines, isIndentationOnly line = false → m <+: line

/-- The longest indentation that all lines start with, but for those of spaces and tabs
    only. -/
structure IsMargin (m : Text) (lines : List Text) : Prop where
  isShared : IsShared m lines
  length_le : ∀ other, IsShared other lines → other.length ≤ m.length

/-- Lines with something on them share what their margin starts with. -/
theorem isShared_iff (h : ∃ line ∈ lines, isIndentationOnly line = false) :
    IsShared m lines ↔ m <+: margin lines := by
  have hmem : ∀ line, line ∈ lines.filter (!isIndentationOnly ·) ↔
      line ∈ lines ∧ isIndentationOnly line = false := by simp
  have hmargin : m <+: margin lines ↔
      ∀ start ∈ (lines.filter (!isIndentationOnly ·)).map indentation, m <+: start := by
    rw [margin]
    split
    · rename_i hnone
      obtain ⟨line, hline⟩ := h
      rw [List.map_eq_nil_iff] at hnone
      exact absurd ((hmem line).2 hline) (hnone ▸ List.not_mem_nil)
    · rename_i first rest hstarts
      rw [hstarts]
      exact isPrefix_foldl_commonStart_iff
  rw [hmargin, List.forall_mem_map]
  simp only [hmem, isPrefix_indentation_iff]
  constructor
  · rintro ⟨hindent, hprefix⟩ line ⟨hline, hcounts⟩
    exact ⟨hindent, hprefix line hline hcounts⟩
  · intro hall
    obtain ⟨line, hline⟩ := h
    exact ⟨(hall line hline).1, fun other hother hcounts => (hall other ⟨hother, hcounts⟩).2⟩

/-- The margin of lines with something on them is their only one. -/
theorem isMargin_iff (h : ∃ line ∈ lines, isIndentationOnly line = false) :
    IsMargin m lines ↔ m = margin lines := by
  constructor
  · rintro ⟨hshared, hlongest⟩
    have hmargin := hlongest (margin lines) ((isShared_iff h).2 (List.prefix_refl _))
    exact ((isShared_iff h).1 hshared).eq_of_length_le hmargin
  · rintro rfl
    exact ⟨(isShared_iff h).2 (List.prefix_refl _), fun other hother =>
      ((isShared_iff h).1 hother).length_le⟩

/-! ## Dedented lines -/

/-- A line without the margin of the lines it is among, or empty if it was of spaces and
    tabs only. -/
def IsShort (lines : List Text) (line rest : Text) : Prop :=
  if isIndentationOnly line then rest = [] else ∃ m, IsMargin m lines ∧ m ++ rest = line

/-- The lines without their margin. -/
def IsDedented (lines short : List Text) : Prop := List.Forall₂ (IsShort lines) lines short

theorem isShort_iff {line rest : Text} (h : line ∈ lines) : IsShort lines line rest ↔
    rest = if isIndentationOnly line then [] else line.drop (margin lines).length := by
  rw [IsShort]
  split
  · rfl
  · rename_i hcounts
    have hsome : ∃ line ∈ lines, isIndentationOnly line = false :=
      ⟨line, h, Bool.eq_false_iff.2 hcounts⟩
    have hprefix : margin lines <+: line :=
      ((isShared_iff hsome).2 (List.prefix_refl _)).isPrefix line h (Bool.eq_false_iff.2 hcounts)
    simp only [isMargin_iff hsome, exists_eq_left]
    constructor
    · rintro rfl
      rw [List.drop_left]
    · rintro rfl
      exact List.prefix_iff_eq_append.1 hprefix

/-- Dedenting gives the lines without their margin, and no other lines are. -/
theorem isDedented_iff : IsDedented lines short ↔ short = dedent lines := by
  have hall : ∀ some ⊆ lines, ∀ short, List.Forall₂ (IsShort lines) some short ↔
      short = some.map fun line =>
        if isIndentationOnly line then [] else line.drop (margin lines).length := by
    intro some hsome
    induction some with
    | nil => exact fun short => List.forall₂_nil_left_iff
    | cons line some ih =>
      rw [List.cons_subset] at hsome
      intro short
      rw [List.forall₂_cons_left_iff, List.map_cons]
      constructor
      · rintro ⟨rest, more, hrest, hmore, rfl⟩
        rw [(isShort_iff hsome.1).1 hrest, (ih hsome.2 more).1 hmore]
      · rintro rfl
        exact ⟨_, _, (isShort_iff hsome.1).2 rfl, (ih hsome.2 _).2 rfl, rfl⟩
  exact hall lines (List.Subset.refl _) short

/-! ## Lines without a margin -/

/-- Lines with nothing left to take from them: those of spaces and tabs only are empty, and
    the others share no indentation. -/
structure IsFlush (lines : List Text) : Prop where
  eq_nil : ∀ line ∈ lines, isIndentationOnly line = true → line = []
  eq_nil_of_isShared : (∃ line ∈ lines, isIndentationOnly line = false) →
    ∀ m, IsShared m lines → m = []

theorem IsFlush.dedent_eq (h : IsFlush lines) : dedent lines = lines := by
  refine (isDedented_iff.1 (List.forall₂_same.2 fun line hline => ?_)).symm
  rw [IsShort]
  split
  · rename_i hblank
    exact h.eq_nil line hline hblank
  · rename_i hcounts
    have hshared : IsShared [] lines := ⟨by simp, fun _ _ _ => List.nil_prefix⟩
    refine ⟨[], ⟨hshared, fun other hother => ?_⟩, rfl⟩
    rw [h.eq_nil_of_isShared ⟨line, hline, Bool.eq_false_iff.2 hcounts⟩ other hother]

/-- What is left of a line is of spaces and tabs only if the line was. -/
theorem isIndentationOnly_of_isShort {line rest : Text} (h : IsShort lines line rest) :
    isIndentationOnly rest = isIndentationOnly line := by
  rw [IsShort] at h
  split at h
  · rename_i hblank
    rw [h, hblank]
    rfl
  · obtain ⟨m, hm, rfl⟩ := h
    rw [isIndentationOnly, isIndentationOnly, List.all_append,
      List.all_eq_true.2 hm.isShared.isSpaceOrTab, Bool.true_and]

/-- Dedented lines have no margin. -/
theorem isFlush_dedent (lines : List Text) : IsFlush (dedent lines) := by
  have hshort : ∀ line ∈ lines, IsShort lines line
      (if isIndentationOnly line then [] else line.drop (margin lines).length) :=
    fun line hline => (isShort_iff hline).2 rfl
  constructor
  · intro rest hrest hblank
    obtain ⟨line, hline, rfl⟩ := List.mem_map.1 hrest
    rw [isIndentationOnly_of_isShort (hshort line hline)] at hblank
    exact if_pos hblank
  · rintro ⟨rest, hrest, hcounts⟩ m hm
    obtain ⟨line, hline, rfl⟩ := List.mem_map.1 hrest
    rw [isIndentationOnly_of_isShort (hshort line hline)] at hcounts
    have hsome : ∃ line ∈ lines, isIndentationOnly line = false := ⟨line, hline, hcounts⟩
    have hmargin := (isMargin_iff hsome).2 rfl
    -- What the dedented lines share comes after the margin of the lines, which is the longest.
    have hshared : IsShared (margin lines ++ m) lines := by
      refine ⟨fun c hc => ?_, fun other hother hothers => ?_⟩
      · rcases List.mem_append.1 hc with hc | hc
        · exact hmargin.isShared.isSpaceOrTab c hc
        · exact hm.isSpaceOrTab c hc
      · have hprefix := hm.isPrefix _ (List.mem_map_of_mem hother)
          ((isIndentationOnly_of_isShort (hshort other hother)).trans hothers)
        rw [if_neg (Bool.eq_false_iff.1 hothers)] at hprefix
        rw [← List.prefix_iff_eq_append.1 (hmargin.isShared.isPrefix other hother hothers)]
        exact (List.prefix_append_right_inj _).2 hprefix
    have hlength := hmargin.length_le _ hshared
    rw [List.length_append] at hlength
    exact List.eq_nil_of_length_eq_zero (by omega)

/-- Empty lines make no difference. -/
theorem IsFlush.of_append {before after : List Text} (h : IsFlush (before ++ lines ++ after))
    (hempty : ∀ line ∈ before ++ after, line = []) : IsFlush lines := by
  have hmem : ∀ line ∈ lines, line ∈ before ++ lines ++ after := fun line hline =>
    List.mem_append_left _ (List.mem_append_right _ hline)
  refine ⟨fun line hline => h.eq_nil line (hmem line hline), fun ⟨line, hline, hcounts⟩ m hm => ?_⟩
  refine h.eq_nil_of_isShared ⟨line, hmem line hline, hcounts⟩ m
    ⟨hm.isSpaceOrTab, fun other hother hothers => ?_⟩
  rcases List.mem_append.1 hother with hother | hafter
  · rcases List.mem_append.1 hother with hbefore | hother
    · rw [hempty other (List.mem_append_left _ hbefore)] at hothers
      cases hothers
    · exact hm.isPrefix other hother hothers
  · rw [hempty other (List.mem_append_right _ hafter)] at hothers
    cases hothers

/-- A line that starts with something else leaves no indentation to share. -/
theorem IsFlush.cons {c : Char} (hc : isSpaceOrTab c = false) (h : IsFlush lines) (s : Text) :
    IsFlush ((c :: s) :: lines) := by
  have hcounts : isIndentationOnly (c :: s) = false := by
    rw [isIndentationOnly, List.all_cons, hc, Bool.false_and]
  constructor
  · intro line hline hblank
    rcases List.mem_cons.1 hline with rfl | hline
    · rw [hcounts] at hblank
      cases hblank
    · exact h.eq_nil line hline hblank
  · rintro - m hm
    have hprefix := hm.isPrefix _ List.mem_cons_self hcounts
    cases m with
    | nil => rfl
    | cons d m =>
      obtain ⟨rfl, -⟩ := List.cons_prefix_cons.1 hprefix
      rw [hm.isSpaceOrTab d List.mem_cons_self] at hc
      cases hc

end Marginalia.Text
