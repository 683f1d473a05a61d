import Marginalia.Proofs.Extraction.Account
import Marginalia.Proofs.Note.Body

/-!
# What the markers of a text enclose

The depth of a note and the text in it are read off the stack of open notes while the
lines are read, before it is known what closes where. They are what the markers say once
the whole text is read, however the notes overlap.

* `depth_eq_countP_surrounds`: a note is as deep as there are notes around it;
* `blocks_have_their_bodies`: every line of text is in the note that is innermost there,
  and in no other.
-/

namespace Marginalia.Extraction

variable {d : Dialect} {source : Text} {e : Extraction}

namespace Account

/-- The lines as they are taken in. -/
def items (a : Account d source e) : List Note.Item :=
  a.readings.map Note.Item.ofReading

theorem inOrder_items (a : Account d source e) : Note.Pairing.InOrder a.items :=
  a.numbered.ordered.inOrder

theorem feedAll_items (a : Account d source e) :
    Note.Pairing.feedAll {} a.items = .ok ⟨[], a.fates.map (·.pending)⟩ := by
  obtain ⟨after, hreads⟩ := a.exists_reads
  exact hreads.run.feedAll

end Account

/-! ## Depths -/

/-- The depth of every note is the number of notes whose markers are before and after its
    opening marker. -/
theorem depth_eq_countP_surrounds {limit : Option Nat} (h : extract d source limit = .ok e) :
    ∃ a : Account d source e, ∀ fate ∈ a.fates,
      fate.pending.depth = a.blocks.countP (·.surrounds fate.pending.opened) := by
  obtain ⟨a, _⟩ := exists_account h
  refine ⟨a, fun fate hfate => ?_⟩
  have hdepths := Note.Pairing.depths_of_feedAll a.inOrder_items a.feedAll_items
  rw [hdepths.closed _ (List.mem_map_of_mem hfate), Note.Pairing.around_of_stack_eq_nil rfl,
    List.length_map, ← List.countP_eq_length_filter]
  rfl

/-- A note that overlaps with the one around it, with a note and a remark in both and one
    past the first. -/
def overhangSource : Text :=
  ("// @annotate(a) A\nw\n// @annotate(b) B\n// NOTE: n\nx // NOTE: m\n" ++
    "// @end(a)\n// NOTE: k\ny\n// @end\n").toList

def overhangExtraction : Extraction where
  code := "w\nx\ny\n".toList
  notes := [⟨1, 1, "n".toList, none, none, 2⟩, ⟨1, 1, "m".toList, some 1, none, 2⟩,
    ⟨0, 1, "A".toList, none, some "a".toList, 0⟩, ⟨2, 2, "k".toList, none, none, 1⟩,
    ⟨1, 2, "B".toList, none, some "b".toList, 1⟩]
  orphans := []

theorem depth_eq_countP_surrounds_overhang :
    extract .standard overhangSource = .ok overhangExtraction ∧
      ∃ a : Account .standard overhangSource overhangExtraction, ∀ fate ∈ a.fates,
        fate.pending.depth = a.blocks.countP (·.surrounds fate.pending.opened) :=
  have h : extract .standard overhangSource = .ok overhangExtraction :=
    toOption_eq_some.1 (by decide +kernel)
  ⟨h, depth_eq_countP_surrounds h⟩

/-! ## Bodies -/

/-- The lines of text at which a block is innermost, in their order. -/
def Account.bodyOf (a : Account d source e) (block : Note.Pending) : List Text :=
  a.readings.filterMap fun reading =>
    if block.IsInnermost a.blocks reading.line.number then reading.role.body? else none

/-- Every line of text is in one block, the innermost there. -/
structure Account.BodiesBelong (a : Account d source e) : Prop where
  /-- The text of a block is worded from what is on its opening marker and from the lines
      of text at which it is innermost. -/
  text : ∀ block ∈ a.blocks, ∃ opener ∈ a.readings, ∃ words,
    opener.line.number = block.opened ∧ opener.role = .opening block.id words ∧
      block.text = Note.word words (a.bodyOf block)
  /-- At every line of text there is exactly one such block. -/
  once : ∀ reading ∈ a.readings, ∀ text, reading.role = .body text →
    a.blocks.countP (·.IsInnermost a.blocks reading.line.number) = 1

/-- The notes between markers have the lines of text that are theirs, none lost, none
    twice and none in the wrong note. -/
theorem blocks_have_their_bodies {limit : Option Nat} (h : extract d source limit = .ok e) :
    ∃ a : Account d source e, a.BodiesBelong := by
  obtain ⟨a, _⟩ := exists_account h
  have ho := a.inOrder_items
  have hfeed := a.feedAll_items
  refine ⟨a, fun block hb => ?_, fun reading hr text hrole => ?_⟩
  · obtain ⟨words, body, hgathered, htext⟩ :=
      (Note.Pairing.gathers_of_feedAll ho hfeed).blocks block hb
    obtain ⟨opener, hopener, hitem⟩ := List.mem_map.1 hgathered.opener
    obtain ⟨hline, hrole⟩ := Note.Item.mk.inj hitem
    refine ⟨opener, hopener, words, hline, hrole, ?_⟩
    have hbody : body = a.bodyOf block := by
      rw [hgathered.body_eq, Note.Pairing.bodyOf, Account.items, List.filterMap_map]
      refine List.filterMap_congr fun reading _ => if_congr ?_ rfl rfl
      exact Note.Pairing.owner?_eq_some_iff (Note.Pairing.tracks_of_feedAll ho hfeed) ho rfl hb
    rw [htext, hbody]
  · have hitem : ⟨reading.line.number, .body text⟩ ∈ a.items :=
      List.mem_map.2 ⟨reading, hr, by rw [Note.Item.ofReading, hrole]⟩
    exact Note.Pairing.countP_isInnermost_eq_one hfeed ho rfl hitem

/-- Three notes in each other with text before, in and after one another. The second is
    closed while the third is open. -/
def interleavedSource : Text :=
  ("// @annotate(a) A\n//  one\n// @annotate(b)\n// two\nx\n// @annotate C\n// three\n" ++
    "// @end(b)\n// four\n// @end\n// five\n// @end(a)").toList

def interleavedExtraction : Extraction where
  code := "x\n".toList
  notes := [⟨0, 0, "two".toList, none, some "b".toList, 1⟩,
    ⟨0, 0, "C\nthree\nfour".toList, none, none, 2⟩,
    ⟨0, 0, "A\n one\nfive".toList, none, some "a".toList, 0⟩]
  orphans := []

theorem blocks_have_their_bodies_interleaved :
    extract .standard interleavedSource = .ok interleavedExtraction ∧
      ∃ a : Account .standard interleavedSource interleavedExtraction, a.BodiesBelong :=
  have h : extract .standard interleavedSource = .ok interleavedExtraction :=
    toOption_eq_some.1 (by decide +kernel)
  ⟨h, blocks_have_their_bodies h⟩

end Marginalia.Extraction
