import Marginalia.Page.Slug
import Marginalia.Proofs.Text.Basic
import Marginalia.Proofs.Text.Runs
import Marginalia.Proofs.Text.Small

/-!
# The ids of headings

The id of a heading is the runs of word characters of its lowercase, joined by hyphens
(`ofHeading_eq`). Such a text is a normal form: its runs are the ones it is joined from, no blank
is in it and every character is its own lowercase, so the id of an id is the id itself.
-/

namespace Marginalia.Slug

open Text

variable {c : Char} {s text : Text} {pieces : List Text} {inGap : Bool}

/-! ## Blanks and hyphens -/

/-- No blank is a word character. -/
theorem not_isWord_of_isBlank (h : isBlank c = true) : isWord c = false := by
  have hcodes : ∀ n ∈ List.range' 0x09 5 ++ List.range' 0x1C 5 ++ List.range' 0x2000 11 ++
      [0x85, 0xA0, 0x1680, 0x2028, 0x2029, 0x202F, 0x205F, 0x3000],
      isWord (Char.ofNat n) = false := by decide +kernel
  have hcode := hcodes c.toNat
  rw [Char.ofNat_toNat] at hcode
  apply hcode
  simp only [isBlank, isSeparator, Bool.or_eq_true, Bool.and_eq_true, decide_eq_true_eq,
    beq_iff_eq] at h
  simp only [List.mem_append, List.mem_range'_1, List.mem_cons, List.not_mem_nil, or_false]
  omega

theorem not_isWord_hyphen : ¬isWord '-' = true := by decide +kernel

/-! ## Hyphens for gaps -/

theorem hyphenate_append (hne : s ≠ []) (h : ∀ c ∈ s, isWord c) (inGap : Bool) (t : Text) :
    hyphenate inGap (s ++ t) = s ++ hyphenate false t := by
  induction s generalizing inGap with
  | nil => exact absurd rfl hne
  | cons c rest ih =>
    rw [List.forall_mem_cons] at h
    rw [List.cons_append, hyphenate, if_pos h.1]
    cases rest with
    | nil => rfl
    | cons d rest =>
      rw [ih (List.cons_ne_nil _ _) h.2]
      rfl

theorem hyphenate_cons_of_neg (hc : ¬isWord c) (s : Text) :
    hyphenate inGap (c :: s) = (if inGap then [] else ['-']) ++ hyphenate true s := by
  rw [hyphenate, if_neg hc]
  cases inGap <;> rfl

/-- After a gap, hyphens are put between the runs, and perhaps one after the last. -/
theorem exists_hyphenate_eq (s : Text) : ∃ after, (∀ c ∈ after, c = '-') ∧
    hyphenate true s = joinWith '-' (runs isWord s) ++ after := by
  induction s using runs_induction (p := isWord) with
  | nil => exact ⟨[], fun _ h => absurd h List.not_mem_nil, by rw [runs_nil]; rfl⟩
  | gap c t hc ih =>
    obtain ⟨after, hafter, heq⟩ := ih
    refine ⟨after, hafter, ?_⟩
    rw [hyphenate_cons_of_neg hc, runs_cons_of_neg hc, if_pos rfl, List.nil_append, heq]
  | last s hne hs =>
    refine ⟨[], fun _ h => absurd h List.not_mem_nil, ?_⟩
    have happend := hyphenate_append hne hs true []
    rw [List.append_nil] at happend
    rw [runs_of_forall hne hs, joinWith_singleton, happend]
    rfl
  | run s c t hne hs hc ih =>
    obtain ⟨after, hafter, heq⟩ := ih
    rw [hyphenate_append hne hs, hyphenate_cons_of_neg hc, runs_run_append_cons hne hs hc, heq,
      if_neg Bool.false_ne_true]
    by_cases hruns : runs isWord t = []
    · refine ⟨'-' :: after, List.forall_mem_cons.2 ⟨rfl, hafter⟩, ?_⟩
      rw [hruns, joinWith_singleton]
      rfl
    · refine ⟨after, hafter, ?_⟩
      rw [joinWith_cons hruns, List.append_assoc]
      rfl

/-- What joins words has none of its hyphens at an end. -/
theorem stripOf_joinWith_words (h : ∀ piece ∈ pieces, piece ≠ [] ∧ ∀ c ∈ piece, isWord c) :
    stripOf (· == '-') (joinWith '-' pieces) = joinWith '-' pieces := by
  rw [stripOf_joinWith fun piece hpiece hc => not_isWord_hyphen ((h piece hpiece).2 _ hc),
    stripOf_eq_self_iff.2]
  have hne : ∀ piece ∈ pieces, ¬piece.isEmpty = true := fun piece hpiece hempty =>
    (h piece hpiece).1 (List.isEmpty_iff.1 hempty)
  exact ⟨fun piece hpiece => hne piece (List.mem_of_mem_head? hpiece),
    fun piece hpiece => hne piece (List.mem_of_getLast? hpiece)⟩

/-- At the start of a text a gap has a hyphen too. -/
theorem exists_hyphenate_false_eq (s : Text) : ∃ before, (∀ c ∈ before, c = '-') ∧
    hyphenate false s = before ++ hyphenate true s := by
  cases s with
  | nil => exact ⟨[], fun _ h => absurd h List.not_mem_nil, rfl⟩
  | cons c rest =>
    by_cases hc : isWord c
    · refine ⟨[], fun _ h => absurd h List.not_mem_nil, ?_⟩
      rw [hyphenate, if_pos hc, hyphenate, if_pos hc, List.nil_append]
    · refine ⟨['-'], fun c h => List.mem_singleton.1 h, ?_⟩
      rw [hyphenate_cons_of_neg hc, hyphenate_cons_of_neg hc, if_neg Bool.false_ne_true,
        if_pos rfl, List.nil_append]

/-- The id of a heading is the words of its lowercase, joined by hyphens. -/
theorem ofHeading_eq (text : Text) :
    ofHeading text = joinWith '-' (runs isWord (lower (strip text))) := by
  obtain ⟨before, hbefore, hstart⟩ := exists_hyphenate_false_eq (lower (strip text))
  obtain ⟨after, hafter, hend⟩ := exists_hyphenate_eq (lower (strip text))
  rw [ofHeading, hstart, hend, ← List.append_assoc,
    stripOf_surround (fun c hc => beq_iff_eq.2 (hbefore c hc)) fun c hc =>
      beq_iff_eq.2 (hafter c hc)]
  exact stripOf_joinWith_words fun piece hpiece => of_mem_runs hpiece

example : ofHeading "  Größe & Maß -- 2_b ".toList = "größe-maß-2_b".toList := by decide +kernel

/-! ## Ids as a normal form -/

theorem isWord_or_eq_of_mem_ofHeading (h : c ∈ ofHeading text) : isWord c = true ∨ c = '-' := by
  rw [ofHeading_eq] at h
  rcases mem_joinWith h with h | ⟨piece, hpiece, h⟩
  · exact .inr h
  · exact .inl ((of_mem_runs hpiece).2 c h)

theorem isSmall_of_mem_ofHeading (h : c ∈ ofHeading text) : IsSmall c := by
  rw [ofHeading_eq] at h
  rcases mem_joinWith h with rfl | ⟨piece, hpiece, h⟩
  · decide +kernel
  · exact isSmall_of_mem_lower (mem_of_mem_runs hpiece h)

theorem strip_ofHeading (text : Text) : strip (ofHeading text) = ofHeading text := by
  have hblank : ∀ c ∈ ofHeading text, ¬isBlank c = true := by
    intro c hc hblank
    rcases isWord_or_eq_of_mem_ofHeading hc with hword | rfl
    · rw [not_isWord_of_isBlank hblank] at hword
      cases hword
    · cases hblank
  exact strip_eq_self_iff.2 ⟨fun c hc => hblank c (List.mem_of_mem_head? hc),
    fun c hc => hblank c (List.mem_of_getLast? hc)⟩

/-- The words of an id are those it is joined from. -/
theorem runs_ofHeading (text : Text) :
    runs isWord (ofHeading text) = runs isWord (lower (strip text)) := by
  rw [ofHeading_eq, runs_joinWith not_isWord_hyphen fun piece hpiece => of_mem_runs hpiece]

/-- The id of an id is the id. -/
theorem ofHeading_ofHeading (text : Text) : ofHeading (ofHeading text) = ofHeading text := by
  rw [ofHeading_eq (ofHeading text), strip_ofHeading,
    lower_eq_self fun c hc => isSmall_of_mem_ofHeading hc, runs_ofHeading, ← ofHeading_eq]

/-- The id of a heading is the words of its lowercase with single hyphens between them, and
    nothing else; of an id, it is the id. -/
theorem heading_ids_are_joined_words (text : Text) :
    ofHeading text = joinWith '-' (runs isWord (lower (strip text))) ∧
      (∀ c ∈ ofHeading text, isWord c = true ∨ c = '-') ∧
      (ofHeading text).head? ≠ some '-' ∧ (ofHeading text).getLast? ≠ some '-' ∧
      ¬['-', '-'] <:+: ofHeading text ∧ ofHeading (ofHeading text) = ofHeading text := by
  refine ⟨ofHeading_eq text, fun c hc => isWord_or_eq_of_mem_ofHeading hc, fun h => ?_, fun h => ?_,
    ?_, ofHeading_ofHeading text⟩
  · exact not_of_head?_stripOf h (BEq.refl '-')
  · exact not_of_getLast?_stripOf h (BEq.refl '-')
  · rw [ofHeading_eq]
    exact not_isInfix_joinWith fun piece hpiece =>
      ⟨(of_mem_runs hpiece).1, fun hc => not_isWord_hyphen ((of_mem_runs hpiece).2 _ hc)⟩

end Marginalia.Slug
