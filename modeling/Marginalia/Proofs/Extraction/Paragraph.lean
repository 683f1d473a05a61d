import Mathlib.Order.Bounds.Defs
import Marginalia.Proofs.Extraction.Correspondence
import Marginalia.Proofs.Extraction.Enclosure
import Marginalia.Proofs.Extraction.Range
import Marginalia.Proofs.Note.Paragraph

/-!
# Notes before their lines

A note in no block that encloses no code is on the code that follows it. Seen in the
displayed code, it is on the first line that is not blank among those after it and, if
it is a block, on all lines from there on up to a blank line or a line after which
something was removed (`Account.IsRun`). It is dropped if no such line follows.

* `Account.isGreatest_of_isParagraph`: a paragraph in the displayed code;
* `Account.count_orphans`: a dropped note is told once;
* `notes_on_following_lines`: where notes before their lines are displayed.
-/

namespace Marginalia

/-- The kept lines before a line, by their numbers. -/
theorem Display.countP_keptOf {readings : List Reading} (hn : Numbered readings) (n : Nat) :
    (keptOf readings).countP (·.line.number < n) = shownBefore readings n := by
  have hbefore := hn.filter_between (Nat.zero_le n)
  simp only [Nat.zero_le, decide_true, Bool.true_and, List.drop_zero] at hbefore
  rw [shownBefore, ← hbefore, keptOf, List.countP_filter, List.countP_filter]
  simp only [Bool.and_comm]

namespace Extraction

variable {d : Dialect} {source : Text} {e : Extraction}

/-- There is a line of the text at the position, and it is not blank. -/
def IsFilled (code : Text) (position : Nat) : Prop :=
  ∃ line, (Line.split code)[position]? = some line ∧ ¬line.content.isBlankText

namespace Account

/-- The lines of the code from the first to the last are not blank, and each was right
    before the next one in the source text. -/
structure IsRun (a : Account d source e) (first last : Nat) : Prop where
  first_le_last : first ≤ last
  filled : ∀ k, first ≤ k → k ≤ last → IsFilled e.code k
  consecutive : ∀ k reading next, first ≤ k → k < last → a.kept[k]? = some reading →
    a.kept[k + 1]? = some next → next.line.number = reading.line.number + 1

/-- The number of displayed lines before the last marker of a note. -/
def shownUpTo (a : Account d source e) (note : Note.Pending) : Nat :=
  a.kept.countP fun reading => (reading.line.number : Int) < note.closed

/-- The note is written before its lines: its markers are in no block, and if it is a
    block there is nothing displayed between them. -/
structure StandsBefore (a : Account d source e) (note : Note.Pending) : Prop where
  form : note.form ≠ .inline
  outside : ∀ block ∈ a.blocks, ¬note.isInside block
  hollow : ∀ reading ∈ a.between note, ¬reading.role.isKept

/-- The note is on the lines after it that are displayed and not blank. -/
structure IsOnFollowing (a : Account d source e) (fate : Note.Fate) : Prop where
  /-- It is dropped if there are only blank lines after it. -/
  dropped : fate.note = none ↔ ∀ k, a.shownUpTo fate.pending ≤ k → ¬IsFilled e.code k
  /-- It is told once that it is dropped, and not otherwise. -/
  told : e.orphans.count ⟨fate.pending.opened⟩ = if fate.note = none then 1 else 0
  /-- Otherwise it begins on the first line after it that is not blank. -/
  first : ∀ note, fate.note = some note →
    IsLeast {k | a.shownUpTo fate.pending ≤ k ∧ IsFilled e.code k} note.first
  /-- A note on a single line is on that line. -/
  line : fate.pending.form = .line → ∀ note, fate.note = some note → note.last = note.first
  /-- A block is on all lines from there on up to a blank or a removed one. -/
  block : fate.pending.form = .block → ∀ note, fate.note = some note →
    IsGreatest {last | a.IsRun note.first last} note.last

/-! ## Positions of lines with code -/

variable (a : Account d source e) {position first last : Nat}

/-- A line of the code is not blank if the line displayed there has code. -/
theorem isFilled_iff : IsFilled e.code position ↔
    ∃ reading, a.kept[position]? = some reading ∧ reading.role.isContent := by
  have hlines : ((Line.split e.code)[position]?).map Line.piece =
      (a.kept[position]?).map fun r => (r.shown, r.line.ending) := by
    rw [← List.getElem?_map, ← List.getElem?_map, a.map_piece_split_code, Display.displayed_eq_map]
    rfl
  have hcontent : ∀ reading, a.kept[position]? = some reading →
      (reading.role.isContent ↔ ¬reading.shown.isBlankText) := by
    intro reading hreading
    have hk := (List.mem_filter.1 (List.mem_of_getElem? hreading)).2
    obtain ⟨shown, hshown⟩ := Option.isSome_iff_exists.1 hk
    rw [Role.isContent, Reading.shown, hshown]
    simp
  constructor
  · rintro ⟨line, hline, hblank⟩
    rw [hline, Option.map_some] at hlines
    obtain ⟨reading, hreading, hpiece⟩ := Option.map_eq_some_iff.1 hlines.symm
    refine ⟨reading, hreading, (hcontent reading hreading).2 ?_⟩
    rwa [(Prod.mk.inj hpiece).1]
  · rintro ⟨reading, hreading, hfilled⟩
    rw [hreading, Option.map_some] at hlines
    obtain ⟨line, hline, hpiece⟩ := Option.map_eq_some_iff.1 hlines
    refine ⟨line, hline, ?_⟩
    have hshown : line.content = reading.shown := (Prod.mk.inj hpiece).1
    rw [hshown]
    exact (hcontent reading hreading).1 hfilled

/-- A line of the code is not blank if it is where a line with code is displayed. -/
theorem isFilled_iff_lineIs : IsFilled e.code position ↔ ∃ i : Nat,
    Note.LineIs Role.isContent (rolesOf a.readings) i ∧
      position = Display.shownBefore a.readings i := by
  rw [a.isFilled_iff]
  constructor
  · rintro ⟨reading, hreading, hcontent⟩
    obtain ⟨hi, _, hposition⟩ := (Display.getElem?_keptOf a.numbered).1 hreading
    exact ⟨_, lineIs_rolesOf_natCast.2 ⟨reading, hi, hcontent⟩, hposition⟩
  · rintro ⟨i, hcontent, rfl⟩
    obtain ⟨reading, hi, hrole⟩ := lineIs_rolesOf_natCast.1 hcontent
    obtain rfl := a.numbered i reading hi
    exact ⟨reading, (Display.getElem?_keptOf a.numbered).2
      ⟨hi, Role.isKept_of_isContent hrole, rfl⟩, hrole⟩

/-- The lines of a paragraph are displayed in a row. -/
theorem exists_kept_of_isParagraph {n : Nat}
    (h : Note.Span.IsParagraph (rolesOf a.readings) ⟨first, last⟩) (hn : first + n ≤ last) :
    Display.shownBefore a.readings (first + n) = Display.shownBefore a.readings first + n ∧
    ∃ reading, a.kept[Display.shownBefore a.readings first + n]? = some reading ∧
      reading.line.number = first + n ∧ reading.role.isContent := by
  have hcontent : ∀ k, first + k ≤ last → ∃ reading, a.readings[first + k]? = some reading ∧
      reading.role.isContent := by
    intro k hk
    exact lineIs_rolesOf_natCast.1 (h.content (first + k : Nat)
      (Int.ofNat_le.2 (Nat.le_add_right ..)) (Int.ofNat_le.2 hk))
  have hadd : Display.shownBefore a.readings (first + n) =
      Display.shownBefore a.readings first + n := by
    refine Display.shownBefore_add n fun k hk => ?_
    obtain ⟨reading, hreading, hrole⟩ := hcontent k (by omega)
    exact ⟨reading, hreading, Role.isKept_of_isContent hrole⟩
  obtain ⟨reading, hreading, hrole⟩ := hcontent n hn
  have hnumber := a.numbered _ reading hreading
  have hget : a.readings[reading.line.number]? = some reading := by rw [hnumber, hreading]
  refine ⟨hadd, reading, (Display.getElem?_keptOf a.numbered).2 ?_, hnumber, hrole⟩
  exact ⟨hget, Role.isKept_of_isContent hrole, by rw [hnumber, hadd]⟩

/-- A paragraph is displayed as the longest run from its first line on. -/
theorem isGreatest_of_isParagraph
    (h : Note.Span.IsParagraph (rolesOf a.readings) ⟨first, last⟩) :
    IsGreatest {position | a.IsRun (Display.shownBefore a.readings first) position}
      (Display.shownBefore a.readings last) := by
  have hle : first ≤ last := Int.ofNat_le.1 h.first_le_last
  obtain ⟨length, rfl⟩ := Nat.exists_eq_add_of_le hle
  obtain ⟨hlast, final, hfinal, hnumber, _⟩ := a.exists_kept_of_isParagraph h (Nat.le_refl _)
  rw [hlast]
  constructor
  · refine ⟨Nat.le_add_right .., fun k hfk hkl => ?_,
      fun k reading next hfk hkl hreading hnext => ?_⟩
    · obtain ⟨n, rfl⟩ := Nat.exists_eq_add_of_le hfk
      obtain ⟨_, reading, hreading, _, hrole⟩ := a.exists_kept_of_isParagraph h (n := n) (by omega)
      exact a.isFilled_iff.2 ⟨reading, hreading, hrole⟩
    · obtain ⟨n, rfl⟩ := Nat.exists_eq_add_of_le hfk
      obtain ⟨_, reading', hreading', hn, _⟩ := a.exists_kept_of_isParagraph h (n := n) (by omega)
      obtain ⟨_, next', hnext', hn', _⟩ := a.exists_kept_of_isParagraph h (n := n + 1) (by omega)
      obtain rfl := Option.some.inj (hreading.symm.trans hreading')
      obtain rfl := Option.some.inj (hnext.symm.trans hnext')
      omega
  · rintro position hrun
    by_contra hlt
    -- The line right after the paragraph would have code.
    obtain ⟨next, hnext, hrole⟩ := a.isFilled_iff.1 (hrun.filled
      (Display.shownBefore a.readings first + length + 1) (by omega) (by omega))
    have hconsecutive := hrun.consecutive _ final next (by omega) (by omega) hfinal hnext
    refine h.ended (lineIs_rolesOf_natCast.2 ⟨next, ?_, hrole⟩)
    rw [← hnumber, ← hconsecutive]
    exact ((Display.getElem?_keptOf a.numbered).1 hnext).1

/-! ## Notes and the lines after them -/

variable {a} {note : Note.Pending} {fate : Note.Fate} {found : Option Note.Span}

theorem shownUpTo_eq {closed : Nat} (hclosed : note.closed = closed) :
    a.shownUpTo note = Display.shownBefore a.readings closed := by
  simp only [shownUpTo, hclosed, Int.ofNat_lt]
  exact Display.countP_keptOf a.numbered closed

/-- A line with code that is displayed at the lines after a note comes after the note. -/
theorem StandsBefore.closed_lt (hs : a.StandsBefore note) (hw : note.IsWritten a.readings) {i : Nat}
    (hi : Note.LineIs Role.isContent (rolesOf a.readings) i) :
    a.shownUpTo note ≤ Display.shownBefore a.readings i ↔ note.closed < i := by
  obtain ⟨closer, hcloser, hclosed, hkept⟩ := hw.exists_closed_line hs.form
  obtain ⟨reading, hreading, hrole⟩ := lineIs_rolesOf_natCast.1 hi.isKept
  rw [shownUpTo_eq hclosed, hclosed, Int.ofNat_lt]
  constructor
  · intro hle
    by_contra hlt
    rcases Nat.lt_or_eq_of_le (Nat.le_of_not_lt hlt) with hlt | rfl
    · have := Display.shownBefore_lt hreading hrole hlt
      omega
    · rw [a.numbered.getElem?_of_mem hcloser] at hreading
      obtain rfl := Option.some.inj hreading
      exact hkept hrole
  · exact fun hlt => Display.shownBefore_mono _ (Nat.le_of_lt hlt)

/-- The line with code that comes next after a note is displayed as the first line after
    it that is not blank. -/
theorem StandsBefore.isLeast (hs : a.StandsBefore note) (hw : note.IsWritten a.readings)
    (h : note.IsNext (rolesOf a.readings) first) :
    IsLeast {k | a.shownUpTo note ≤ k ∧ IsFilled e.code k}
      (Display.shownBefore a.readings first) := by
  have hfilled := a.isFilled_iff_lineIs.2 ⟨first, h.content, rfl⟩
  refine ⟨⟨(hs.closed_lt hw h.content).2 h.after, hfilled⟩, ?_⟩
  rintro k ⟨hle, hfilled⟩
  obtain ⟨i, hi, rfl⟩ := a.isFilled_iff_lineIs.1 hfilled
  have hafter := (hs.closed_lt hw hi).1 hle
  have hnot : ¬i < first := fun hlt => h.first i hafter (Int.ofNat_lt.2 hlt) hi
  exact Display.shownBefore_mono _ (Nat.le_of_not_lt hnot)

/-- No line after a note has code if all lines displayed after it are blank. -/
theorem StandsBefore.forall_blank (hs : a.StandsBefore note) (hw : note.IsWritten a.readings)
    (h : ∀ k, note.closed < k → ¬Note.LineIs Role.isContent (rolesOf a.readings) k) :
    ∀ k, a.shownUpTo note ≤ k → ¬IsFilled e.code k := by
  intro k hle hfilled
  obtain ⟨i, hi, rfl⟩ := a.isFilled_iff_lineIs.1 hfilled
  exact h i ((hs.closed_lt hw hi).1 hle) hi

theorem StandsBefore.findsNext (hs : a.StandsBefore fate.pending) (hfate : fate ∈ a.fates)
    (h : fate.IsSettled a.readings a.blocks found) :
    Note.FindsNext (rolesOf a.readings) fate.pending found := by
  refine Note.findsNext_of_span (a.isPlaced hfate) hs.form (fun k hk => ?_) hs.outside h.span_eq
  obtain ⟨hopened, hclosed, hkept⟩ := hk
  obtain ⟨i, reading, rfl, hreading, hrole⟩ := lineIs_rolesOf.1 hkept
  obtain rfl := a.numbered i reading hreading
  refine hs.hollow reading (List.mem_filter.2 ⟨List.mem_of_getElem? hreading, ?_⟩) hrole
  rw [Bool.and_eq_true, decide_eq_true_eq, decide_eq_true_eq]
  exact ⟨hopened, hclosed⟩

/-! ## Dropped notes -/

/-- No two notes begin on the same line. -/
theorem nodup_opened (a : Account d source e) : (a.fates.map (·.pending.opened)).Nodup := by
  have ho := a.inOrder_items
  have htracks := Note.Pairing.tracks_of_feedAll ho a.feedAll_items
  have hclosed := List.pairwise_map.1 (htracks.pairwise_closed ho)
  refine List.pairwise_map.2 (hclosed.imp_of_mem fun {x y} hx hy hlt heq => ?_)
  -- Both notes are blocks, or neither is: the line is the opening marker of both or of none.
  obtain ⟨opener, hopener, hline, hform⟩ := (a.written x hx).exists_opened_line
  obtain ⟨opener', hopener', hline', hform'⟩ := (a.written y hy).exists_opened_line
  have hsame : opener = opener' := by
    have hnumber : opener.line.number = opener'.line.number := by omega
    have hget := a.numbered.getElem?_of_mem hopener
    rw [hnumber, a.numbered.getElem?_of_mem hopener'] at hget
    exact (Option.some.inj hget).symm
  rw [hsame, ← hform'] at hform
  by_cases hblock : x.pending.form = .block
  · have hmem : ∀ z ∈ a.fates, z.pending.form = .block → z.pending ∈ a.blocks :=
      fun z hz hz' => List.mem_filter.2 ⟨List.mem_map_of_mem hz, beq_iff_eq.2 hz'⟩
    have := htracks.eq_of_opened_eq ho (hmem x hx hblock) (hmem y hy (hform.1 hblock)) heq
    rw [this] at hlt
    exact Int.lt_irrefl _ hlt
  · have := (a.isPlaced hx).of_ne_block hblock
    have := (a.isPlaced hy).of_ne_block fun h => hblock (hform.2 h)
    omega

/-- A dropped note is told once, and no other note is. -/
theorem count_orphans (hfate : fate ∈ a.fates) :
    e.orphans.count ⟨fate.pending.opened⟩ = if fate.note = none then 1 else 0 := by
  have horphan : ∀ {f : Note.Fate} {orphan : Orphan}, f.orphan? = some orphan ↔
      f.note = none ∧ ⟨f.pending.opened⟩ = orphan := by
    intro f orphan
    rw [Note.Fate.orphan?, Option.ite_none_right_eq_some, Option.isNone_iff_eq_none, Option.some.injEq]
  have hnodup : e.orphans.Nodup := by
    rw [a.orphans]
    refine List.Pairwise.filterMap _ (fun x y hxy orphan hx orphan' hy heq => hxy ?_)
      (List.pairwise_map.1 a.nodup_opened)
    have hline := (horphan.1 hx).2.trans (heq.trans (horphan.1 hy).2.symm)
    exact Orphan.mk.inj hline
  have hmem : ⟨fate.pending.opened⟩ ∈ e.orphans ↔ fate.note = none := by
    rw [a.orphans, List.mem_filterMap]
    constructor
    · rintro ⟨other, hother, hline⟩
      obtain ⟨hnote, hline⟩ := horphan.1 hline
      obtain rfl := List.inj_on_of_nodup_map a.nodup_opened hother hfate (Orphan.mk.inj hline)
      exact hnote
    · exact fun hnote => ⟨fate, hfate, horphan.2 ⟨hnote, rfl⟩⟩
  rw [hnodup.count]
  exact if_congr hmem rfl rfl

/-! ## The fate of a note before its lines -/

theorem StandsBefore.isOnFollowing_of_none (hs : a.StandsBefore fate.pending)
    (hfate : fate ∈ a.fates) (hnote : fate.note = none)
    (h : ∀ k, fate.pending.closed < k → ¬Note.LineIs Role.isContent (rolesOf a.readings) k) :
    a.IsOnFollowing fate := by
  have hnone : ∀ note, ¬fate.note = some note := by simp [hnote]
  exact ⟨iff_of_true hnote (hs.forall_blank (a.written fate hfate) h), count_orphans hfate,
    fun note hsome => absurd hsome (hnone note), fun _ note hsome => absurd hsome (hnone note),
    fun _ note hsome => absurd hsome (hnone note)⟩

theorem StandsBefore.isOnFollowing_of_some (hs : a.StandsBefore fate.pending)
    (hfate : fate ∈ a.fates) (hnote : fate.note = some (fate.pending.on a.readings ⟨first, last⟩))
    (hnext : fate.pending.IsNext (rolesOf a.readings) first)
    (hline : fate.pending.form = .line → last = first)
    (hblock : fate.pending.form = .block →
      Note.Span.IsParagraph (rolesOf a.readings) ⟨first, last⟩) :
    a.IsOnFollowing fate := by
  have hleast := hs.isLeast (a.written fate hfate) hnext
  have hnot : ¬∀ k, a.shownUpTo fate.pending ≤ k → ¬IsFilled e.code k :=
    fun hblank => hblank _ hleast.1.1 hleast.1.2
  refine ⟨iff_of_false (by simp [hnote]) hnot, count_orphans hfate, ?_, ?_, ?_⟩
  · rintro note hsome
    obtain rfl := Option.some.inj (hnote.symm.trans hsome)
    exact hleast
  · rintro hform note hsome
    obtain rfl := Option.some.inj (hnote.symm.trans hsome)
    rw [hline hform]
    rfl
  · rintro hform note hsome
    obtain rfl := Option.some.inj (hnote.symm.trans hsome)
    exact a.isGreatest_of_isParagraph (hblock hform)

theorem StandsBefore.isOnFollowing (hs : a.StandsBefore fate.pending) (hfate : fate ∈ a.fates)
    (h : fate.IsSettled a.readings a.blocks found) : a.IsOnFollowing fate := by
  have hnote := h.note_eq
  cases hs.findsNext hfate h with
  | nothing hnone => exact hs.isOnFollowing_of_none hfate hnote hnone
  | line hform hnext =>
    obtain ⟨first, _, rfl, _⟩ := lineIs_rolesOf.1 hnext.content
    refine hs.isOnFollowing_of_some hfate hnote hnext (fun _ => rfl) fun hblock => ?_
    rw [hform] at hblock
    cases hblock
  | @paragraph span hform hnext hparagraph =>
    obtain ⟨spanFirst, spanLast⟩ := span
    obtain ⟨first, _, rfl, _⟩ := lineIs_rolesOf.1 hnext.content
    obtain ⟨last, _, rfl, _⟩ := lineIs_rolesOf.1
      (hparagraph.content spanLast hparagraph.first_le_last (Int.le_refl _))
    refine hs.isOnFollowing_of_some hfate hnote hnext (fun hline => ?_) fun _ => hparagraph
    rw [hform] at hline
    cases hline

end Account

/-- Every note in no block and around no displayed line is on the displayed lines after
    it, or is dropped if these are blank. -/
theorem notes_on_following_lines {limit : Option Nat} (h : extract d source limit = .ok e) :
    ∃ a : Account d source e, ∀ fate ∈ a.fates,
      a.StandsBefore fate.pending → a.IsOnFollowing fate := by
  obtain ⟨a, hsettled⟩ := exists_account h
  refine ⟨a, fun fate hfate hs => ?_⟩
  obtain ⟨found, hfound⟩ := hsettled fate hfate
  exact hs.isOnFollowing hfate hfound

/-- Notes before blank lines and before a paragraph that a comment cuts, and one after all
    code. -/
def leadingSource : Text :=
  ("a\n// NOTE: n\n\n// @annotate B\n// b\n// @end\n\nx\ny\n// NOTE: m\nz\n\n" ++
    "// @annotate C\n// @end\n \n").toList

def leadingExtraction : Extraction where
  code := "a\n\n\nx\ny\nz\n\n \n".toList
  notes := [⟨3, 3, "n".toList, none, none, 0⟩, ⟨3, 4, "B\nb".toList, none, none, 0⟩,
    ⟨5, 5, "m".toList, none, none, 0⟩]
  orphans := [⟨12⟩]

theorem notes_on_following_lines_leading :
    extract .standard leadingSource = .ok leadingExtraction ∧
      ∃ a : Account .standard leadingSource leadingExtraction,
        ∀ fate ∈ a.fates, a.StandsBefore fate.pending → a.IsOnFollowing fate :=
  have h : extract .standard leadingSource = .ok leadingExtraction :=
    toOption_eq_some.1 (by decide +kernel)
  ⟨h, notes_on_following_lines h⟩

end Extraction

end Marginalia
