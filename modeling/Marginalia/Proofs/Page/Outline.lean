import Marginalia.Proofs.Page.Fence

/-!
# Headings outside of fenced code

Headings are read with the lenient fencing, in which anything may stand after a fence: they are
those of the lines outside of its blocks (`ofMarkdown_eq`). A line that only the lenient fencing
takes for a fence is misread (`Block.IsMisread`): the blocks up to the one with it are those of
the strict fencing, but what is code after it and what is not may be mistaken for each other.
-/

namespace Marginalia.Heading

variable {fence : Fence} {block : Block} {blocks : List Block}

/-! ## Lines that are passed over -/

/-- Lines of code are passed over. -/
theorem ofLines_code {code : List Text} {opening : Text} (hopens : Fencing.lenient.Opens fence opening)
    (hcode : ∀ l ∈ code, ¬Fencing.lenient.Closes fence l) (after : List Text) :
    ofLines (some fence) (code ++ after) = ofLines (some fence) after := by
  induction code with
  | nil => rfl
  | cons l code ih =>
    rw [List.forall_mem_cons] at hcode
    cases hfence : fence? l with
    | none =>
      simp only [List.cons_append, ofLines, hfence]
      exact ih hcode.2
    | some other =>
      have hends : ¬other.ends fence = true := fun hends =>
        hcode.1 (hopens.closes_lenient_iff.2 ⟨other, hfence, hends⟩)
      simp only [List.cons_append, ofLines, hfence, if_neg hends]
      exact ih hcode.2

/-- Headings are those of the lines outside of the lenient blocks. -/
theorem ofLines_linesOf (h : Fencing.lenient.IsCut blocks) :
    ofLines none (linesOf blocks) = (outside blocks).filterMap ofLine? := by
  induction blocks with
  | nil => rfl
  | cons block blocks ih =>
    rw [Fencing.isCut_cons_iff] at h
    obtain ⟨hblock, hclosed, hrest⟩ := h
    rw [linesOf_cons, outside_cons, List.filterMap_append, ← ih hrest]
    cases block with
    | line l =>
      have hnone : fence? l = none := by
        rw [Option.eq_none_iff_forall_ne_some]
        exact fun fence hfence => hblock fence (Fencing.opens_lenient_iff.2 hfence)
      simp only [Block.lines, Block.outside, List.singleton_append, ofLines, hnone]
      cases hline : ofLine? l <;> simp [hline]
    | fenced fence opening code closing =>
      obtain ⟨hopens, hcode, hcloses⟩ := hblock
      simp only [Block.lines, Block.outside, List.cons_append, List.append_assoc, ofLines,
        hopens.fence?_eq, ofLines_code hopens hcode, List.filterMap_nil, List.nil_append]
      cases closing with
      | none =>
        obtain rfl : blocks = [] := by_contra fun hne => Bool.false_ne_true (hclosed hne)
        rfl
      | some last =>
        obtain ⟨other, hother, hends⟩ := hopens.closes_lenient_iff.1 (hcloses last rfl)
        simp only [Option.toList_some, List.singleton_append, ofLines, hother, if_pos hends]

/-- The headings of a write-up are those of the lines outside of its lenient blocks. -/
theorem ofMarkdown_eq (markdown : Text) : ofMarkdown markdown =
    (outside (Fencing.lenient.cut (Text.lines markdown))).filterMap ofLine? := by
  rw [← ofLines_linesOf (Fencing.isCut_cut _ _), Fencing.linesOf_cut, ofMarkdown]

/-! ## Misread lines -/

/-- A line that only the lenient fencing takes for a fence: outside of fenced code one with a
    backtick after those that would open it, or a line of code with something else than blanks
    after the fence that would close it. -/
def Block.IsMisread : Block → Prop
  | .line l => ∃ length rest, 3 ≤ length ∧ IsRun '\x60' length l rest ∧ '\x60' ∈ rest
  | .fenced fence _ code _ => ∃ l ∈ code, ∃ length rest, fence.length ≤ length ∧
      IsRun fence.mark length l rest ∧ ∃ c ∈ rest, ¬Text.isSpaceOrTab c = true

/-- A block of fenced code is one in the lenient fencing too, unless a line in it is misread. -/
theorem Fencing.isBlock_lenient_iff (h : strict.IsBlock block) :
    lenient.IsBlock block ↔ ¬block.IsMisread := by
  cases block with
  | line l =>
    constructor
    · rintro hlenient ⟨length, rest, hlength, hrun, -⟩
      exact hlenient ⟨'\x60', length⟩ ⟨.inl rfl, hlength, rest, hrun, trivial⟩
    · rintro hmisread fence ⟨hmark, hlength, rest, hrun, -⟩
      refine h fence ⟨hmark, hlength, rest, hrun, fun hbacktick hmem => hmisread ?_⟩
      exact ⟨fence.length, rest, hlength, hbacktick ▸ hrun, hmem⟩
  | fenced fence opening code closing =>
    obtain ⟨hopens, hcode, hcloses⟩ := h
    constructor
    · rintro hlenient ⟨l, hl, length, rest, hlength, hrun, -⟩
      exact hlenient.2.1 l hl ⟨length, rest, hlength, hrun, trivial⟩
    · intro hmisread
      refine ⟨hopens.to_lenient, fun l hl => ?_, fun l hl => (hcloses l hl).to_lenient⟩
      rintro ⟨length, rest, hlength, hrun, -⟩
      refine hcode l hl ⟨length, rest, hlength, hrun, fun c hc => by_contra fun hblank => ?_⟩
      exact hmisread ⟨l, hl, length, rest, hlength, hrun, c, hc, hblank⟩

/-- The headings of a write-up are those of the lines outside of its fenced code, unless a line is
    misread. They are always those outside of the lenient blocks, which are its fenced code up to
    the first block with a misread line, and to the end exactly if there is none. -/
theorem headings_outside_fenced_code (markdown : Text) :
    ((∀ block ∈ Fencing.strict.cut (Text.lines markdown), ¬block.IsMisread) →
      ofMarkdown markdown =
        (outside (Fencing.strict.cut (Text.lines markdown))).filterMap ofLine?) ∧
    ofMarkdown markdown =
      (outside (Fencing.lenient.cut (Text.lines markdown))).filterMap ofLine? ∧
    (∀ before, before <+: Fencing.strict.cut (Text.lines markdown) →
      (∀ block ∈ before, ¬block.IsMisread) → before <+: Fencing.lenient.cut (Text.lines markdown)) ∧
    (Fencing.lenient.cut (Text.lines markdown) = Fencing.strict.cut (Text.lines markdown) ↔
      ∀ block ∈ Fencing.strict.cut (Text.lines markdown), ¬block.IsMisread) := by
  have hcut := Fencing.strict.isCut_cut (Text.lines markdown)
  have hsame : Fencing.lenient.cut (Text.lines markdown) = Fencing.strict.cut (Text.lines markdown) ↔
      ∀ block ∈ Fencing.strict.cut (Text.lines markdown), ¬block.IsMisread := by
    constructor
    · intro heq block hblock
      have hlenient := (Fencing.lenient.isCut_cut (Text.lines markdown)).isBlock block (heq ▸ hblock)
      exact (Fencing.isBlock_lenient_iff (hcut.isBlock block hblock)).1 hlenient
    · intro hread
      refine Fencing.IsCut.eq_cut ⟨fun block hblock => ?_, hcut.isClosed⟩ (Fencing.linesOf_cut _ _)
      exact (Fencing.isBlock_lenient_iff (hcut.isBlock block hblock)).2 (hread block hblock)
  refine ⟨fun hread => ?_, ofMarkdown_eq markdown, fun before hbefore hread => ?_, hsame⟩
  · rw [ofMarkdown_eq, hsame.2 hread]
  · refine hcut.isPrefix_cut (Fencing.linesOf_cut _ _) hbefore fun block hblock => ?_
    exact (Fencing.isBlock_lenient_iff (hcut.isBlock block (hbefore.subset hblock))).2
      (hread block hblock)

/-- The fence with text after it does not close the code, so the heading in the code is none, and
    the one after the code is one. -/
theorem text_after_fence_shifts_headings :
    ofMarkdown "```\n``` x\n# A\n```\n# B".toList = [⟨"A".toList, 1⟩] ∧
      (outside (Fencing.strict.cut (Text.lines "```\n``` x\n# A\n```\n# B".toList))).filterMap
        ofLine? = [⟨"B".toList, 1⟩] := by
  have hopens : Fencing.strict.Opens ⟨'\x60', 3⟩ "```".toList :=
    ⟨.inl rfl, le_refl 3, [], ⟨0, by decide, rfl, nofun⟩, fun _ => List.not_mem_nil⟩
  have hcloses : Fencing.strict.Closes ⟨'\x60', 3⟩ "```".toList :=
    ⟨3, [], le_refl 3, ⟨0, by decide, rfl, nofun⟩, fun _ h => absurd h List.not_mem_nil⟩
  have hcut : Fencing.strict.IsCut
      [.fenced ⟨'\x60', 3⟩ "```".toList ["``` x".toList, "# A".toList] (some "```".toList),
        .line "# B".toList] := by
    refine Fencing.isCut_cons_iff.2 ⟨⟨hopens, ?_, ?_⟩, fun _ => rfl, Fencing.isCut_cons_iff.2
      ⟨?_, fun _ => trivial, Fencing.isCut_nil _⟩⟩
    · rintro l hl ⟨length, rest, hlength, hrun, hblank⟩
      obtain ⟨rfl, rfl⟩ := hrun.eq (by decide) (Nat.lt_of_lt_of_le (by decide) hlength)
      rcases List.mem_cons.1 hl with rfl | hl
      · exact absurd (hblank 'x' (by decide)) (by decide)
      · obtain rfl := List.mem_singleton.1 hl
        exact absurd hlength (by decide)
    · exact fun l hl => Option.some.inj hl ▸ hcloses
    · intro fence h
      have hnone : fence? "# B".toList = none := by decide
      rw [h.fence?_eq] at hnone
      cases hnone
  refine ⟨by decide, ?_⟩
  rw [hcut.eq_cut (by decide)]
  decide

end Marginalia.Heading
