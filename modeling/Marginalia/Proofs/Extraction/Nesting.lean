import Marginalia.Proofs.Extraction.Account

/-!
# Notes in notes

A note whose markers lie between those of blocks has one of them tightest around
it (`Account.IsAround`): the one with the fewest lines, and the first closed of
those. It is dropped together with that block, and otherwise displayed within it.
Blocks may overlap, and the block around a note may itself take its lines from a
block around it, or be dropped.

* `Pending.tightest?_eq_some_iff`: which of some notes is the tightest;
* `nested_notes_share_fate`: notes in notes are dropped and displayed with these.
-/

namespace Marginalia

namespace Note

namespace Pending

theorem tightest?_eq_none_iff {notes : List Pending} : tightest? notes = none ↔ notes = [] := by
  cases notes with
  | nil => simp [tightest?]
  | cons first rest =>
    rw [tightest?]
    split
    · simp
    · split <;> simp

/-- The tightest note is the first of those with the least extent. -/
theorem tightest?_eq_some_iff {notes : List Pending} {note : Pending} :
    tightest? notes = some note ↔ ∃ before after, notes = before ++ note :: after ∧
      (∀ b ∈ before, note.extent < b.extent) ∧ ∀ b ∈ after, note.extent ≤ b.extent := by
  induction notes generalizing note with
  | nil => simp [tightest?]
  | cons first rest ih =>
    rw [tightest?]
    constructor
    · intro h
      split at h
      · rename_i hnone
        obtain rfl := Option.some.inj h
        exact ⟨[], [], by rw [tightest?_eq_none_iff.1 hnone]; rfl, by simp, by simp⟩
      · rename_i other hother
        obtain ⟨before, after, rfl, hbefore, hafter⟩ := ih.1 hother
        split at h
        · rename_i hlt
          obtain rfl := Option.some.inj h
          exact ⟨first :: before, after, rfl, List.forall_mem_cons.2 ⟨hlt, hbefore⟩, hafter⟩
        · rename_i hle
          obtain rfl := Option.some.inj h
          refine ⟨[], _, rfl, by simp, List.forall_mem_append.2 ⟨fun b hb => ?_,
            List.forall_mem_cons.2 ⟨by omega, fun b hb => ?_⟩⟩⟩
          · have := hbefore b hb
            omega
          · have := hafter b hb
            omega
    · rintro ⟨before, after, hsplit, hbefore, hafter⟩
      cases before with
      | nil =>
        obtain ⟨rfl, rfl⟩ := List.cons.inj hsplit
        split
        · rfl
        · rename_i other hother
          rw [if_neg]
          have := hafter other (mem_of_tightest? hother)
          omega
      | cons b before =>
        obtain ⟨rfl, rfl⟩ := List.cons.inj hsplit
        rw [List.forall_mem_cons] at hbefore
        rw [ih.2 ⟨before, after, rfl, hbefore.2, hafter⟩]
        exact if_pos hbefore.1

end Pending

/-- The pending note, if it is a block around the given one. -/
def Fate.around? (note : Pending) (block : Fate) : Option Pending :=
  if block.pending.form == .block && note.isInside block.pending then some block.pending else none

theorem filter_isInside_blocksOf (note : Pending) (fates : List Fate) :
    (blocksOf (fates.map (·.pending))).filter note.isInside = fates.filterMap (Fate.around? note) := by
  rw [blocksOf, List.filter_filter, ← List.filterMap_eq_filter, List.filterMap_map]
  congr 1
  funext fate
  simp only [Function.comp_apply, Option.guard_apply, Fate.around?, Bool.and_comm]

end Note

namespace Extraction

variable {d : Dialect} {source : Text} {e : Extraction}

/-- The note `outer` is the tightest block around the markers of a note, the first
    one closed if there are several. -/
structure Account.IsAround (a : Account d source e) (fate outer : Note.Fate) : Prop where
  form : outer.pending.form = .block
  isInside : fate.pending.isInside outer.pending
  tightest : ∃ before after, a.fates = before ++ outer :: after ∧
    (∀ b ∈ before, b.pending.form = .block → fate.pending.isInside b.pending →
      outer.pending.extent < b.pending.extent) ∧
    ∀ b ∈ after, b.pending.form = .block → fate.pending.isInside b.pending →
      outer.pending.extent ≤ b.pending.extent

/-- The block that anchoring takes for the one around a note is this one. -/
theorem Account.enclosing?_eq_some_iff (a : Account d source e) {fate : Note.Fate}
    {block : Note.Pending} : fate.pending.enclosing? a.blocks = some block ↔
      ∃ outer, a.IsAround fate outer ∧ outer.pending = block := by
  have haround : ∀ {b : Note.Fate} {p : Note.Pending}, b.around? fate.pending = some p ↔
      b.pending.form = .block ∧ fate.pending.isInside b.pending ∧ b.pending = p := by
    intro b p
    simp only [Note.Fate.around?, Option.ite_none_right_eq_some, Bool.and_eq_true, beq_iff_eq,
      and_assoc, Option.some.injEq]
  rw [Note.Pending.enclosing?, Account.blocks, Note.filter_isInside_blocksOf,
    Note.Pending.tightest?_eq_some_iff]
  constructor
  · rintro ⟨before', after', hsplit, hbefore, hafter⟩
    obtain ⟨before, rest, hfates, rfl, hrest⟩ := List.filterMap_eq_append_iff.1 hsplit
    -- What is before the block is what was looked at before it or is not around the note.
    obtain ⟨skipped, outer, after, rfl, hskipped, houter, rfl⟩ := List.filterMap_eq_cons_iff.1 hrest
    obtain ⟨hform, hinside, rfl⟩ := haround.1 houter
    refine ⟨outer, ⟨hform, hinside, before ++ skipped, after, ?_, ?_, ?_⟩, rfl⟩
    · rw [hfates, List.append_assoc]
    · intro b hb hbform hbinside
      have hb' := haround.2 ⟨hbform, hbinside, rfl⟩
      rcases List.mem_append.1 hb with hb | hb
      · exact hbefore _ (List.mem_filterMap.2 ⟨b, hb, hb'⟩)
      · rw [hskipped b hb] at hb'
        cases hb'
    · intro b hb hbform hbinside
      exact hafter _ (List.mem_filterMap.2 ⟨b, hb, haround.2 ⟨hbform, hbinside, rfl⟩⟩)
  · rintro ⟨outer, ⟨hform, hinside, before, after, hfates, hbefore, hafter⟩, rfl⟩
    refine ⟨before.filterMap (·.around? fate.pending), after.filterMap (·.around? fate.pending),
      ?_, ?_, ?_⟩
    · rw [hfates, List.filterMap_append, List.filterMap_cons,
        haround.2 ⟨hform, hinside, rfl⟩]
    · intro p hp
      obtain ⟨b, hb, hbp⟩ := List.mem_filterMap.1 hp
      obtain ⟨hbform, hbinside, rfl⟩ := haround.1 hbp
      exact hbefore b hb hbform hbinside
    · intro p hp
      obtain ⟨b, hb, hbp⟩ := List.mem_filterMap.1 hp
      obtain ⟨hbform, hbinside, rfl⟩ := haround.1 hbp
      exact hafter b hb hbform hbinside

theorem Account.exists_isAround (a : Account d source e) {fate block : Note.Fate}
    (hblock : block ∈ a.fates) (hform : block.pending.form = .block)
    (hinside : fate.pending.isInside block.pending) : ∃ outer, a.IsAround fate outer := by
  cases h : fate.pending.enclosing? a.blocks with
  | some outer => exact (a.enclosing?_eq_some_iff.1 h).imp fun _ h => h.1
  | none =>
    have hmem : block.pending ∈ a.blocks.filter fate.pending.isInside :=
      List.mem_filter.2 ⟨List.mem_filter.2 ⟨List.mem_map_of_mem hblock, beq_iff_eq.2 hform⟩, hinside⟩
    rw [Note.Pending.tightest?_eq_none_iff.1 h] at hmem
    cases hmem

/-- The notes between the markers of a block share its fate. -/
structure Account.NotesNest (a : Account d source e) : Prop where
  /-- A note between the markers of any block has a tightest block around it. -/
  around : ∀ fate ∈ a.fates, ∀ block ∈ a.fates, block.pending.form = .block →
    fate.pending.isInside block.pending → ∃ outer, a.IsAround fate outer
  /-- It is dropped exactly if that block is. -/
  dropped : ∀ fate ∈ a.fates, ∀ outer, a.IsAround fate outer →
    (fate.note = none ↔ outer.note = none)
  /-- Otherwise it is on lines that the block is on. -/
  within : ∀ fate ∈ a.fates, ∀ outer, a.IsAround fate outer → ∀ note block,
    fate.note = some note → outer.note = some block →
      block.first ≤ note.first ∧ note.last ≤ block.last

/-- Notes in notes are dropped with these, or displayed within them. -/
theorem nested_notes_share_fate {limit : Option Nat} (h : extract d source limit = .ok e) :
    ∃ a : Account d source e, a.NotesNest := by
  obtain ⟨a, hsettled⟩ := exists_account h
  have hshare : ∀ fate ∈ a.fates, ∀ outer, a.IsAround fate outer →
      (fate.note = none ↔ outer.note = none) ∧ ∀ note block,
        fate.note = some note → outer.note = some block →
          block.first ≤ note.first ∧ note.last ≤ block.last := by
    intro fate hfate outer haround
    obtain ⟨before, after, hfates, _⟩ := haround.tightest
    obtain ⟨found, hfound⟩ := hsettled fate hfate
    obtain ⟨found', hfound'⟩ := hsettled outer (by rw [hfates]; simp)
    obtain ⟨hnone, hwithin⟩ := hfound.isOn.within (a.isPlaced hfate) a.isPlaced_of_mem_blocks
      (a.enclosing?_eq_some_iff.2 ⟨outer, haround, rfl⟩) hfound'.span_eq hfound'.isOn
    rw [hfound.note_eq, hfound'.note_eq]
    refine ⟨by rw [Option.map_eq_none_iff, Option.map_eq_none_iff, hnone], ?_⟩
    intro note block hnote hblock
    obtain ⟨span, hspan, rfl⟩ := Option.map_eq_some_iff.1 hnote
    obtain ⟨span', hspan', rfl⟩ := Option.map_eq_some_iff.1 hblock
    obtain ⟨hfirst, hlast⟩ := hwithin span span' hspan hspan'
    exact ⟨Display.shownBefore_mono _ (Int.toNat_le_toNat hfirst),
      Display.shownBefore_mono _ (Int.toNat_le_toNat hlast)⟩
  exact ⟨a, fun fate _ block hblock => a.exists_isAround hblock,
    fun fate hfate outer haround => (hshare fate hfate outer haround).1,
    fun fate hfate outer haround => (hshare fate hfate outer haround).2⟩

/-- A note in two blocks that overlap. They have the same extent, so that it goes
    with the one closed first, though it stands past the only line of that one. -/
def overlapSource : Text :=
  "// @annotate(a) A\nx\n// @annotate(b) B\n// NOTE: n\n// @end(a)\ny\n// @end(b)\n".toList

def overlapExtraction : Extraction where
  code := "x\ny\n".toList
  notes := [⟨0, 0, "n".toList, none, none, 2⟩, ⟨0, 0, "A".toList, none, some "a".toList, 0⟩,
    ⟨1, 1, "B".toList, none, some "b".toList, 1⟩]
  orphans := []

theorem nested_notes_share_fate_overlap :
    extract .standard overlapSource = .ok overlapExtraction ∧
      ∃ a : Account .standard overlapSource overlapExtraction, a.NotesNest :=
  have h : extract .standard overlapSource = .ok overlapExtraction :=
    toOption_eq_some.1 (by decide +kernel)
  ⟨h, nested_notes_share_fate h⟩

end Extraction

end Marginalia
