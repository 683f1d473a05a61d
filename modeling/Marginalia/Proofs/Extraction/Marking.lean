import Marginalia.Proofs.Extraction.Defect
import Marginalia.Proofs.Marker.Grammar

/-!
# Lines with markers

A line opens or closes a note exactly if its comment is a marker that does and nothing but
blanks is before it. A comment that starts like a marker is never taken for anything else: if
it is none, or stands after code, it is a defect.

* `readLine_opening_iff`, `readLine_closing_iff`: the lines that open and close notes;
* `exists_defect_of_misspelt`: the lines with what only starts like a marker;
* `markers_follow_grammar`: this, and that every marker that can be written is read as itself.
-/

namespace Marginalia.Extraction

open Marker

variable {inBlock noteOpen after : Bool} {line : Line} {column : Nat}

/-- The code before a comment that starts there. -/
def codeBefore (line : Line) (column : Nat) : Text := line.content.take column

/-- What a comment that starts there says, without the blanks at its ends. -/
def wordsAt (line : Line) (column : Nat) : Text :=
  Text.strip (line.content.drop (column + "//".toList.length))

section

variable (h : Scan.findComment .standard inBlock line.content = some ⟨some column, after⟩)
include h

/-- A line with a comment is what the comment says. -/
theorem readLine_eq_ok_iff_ofComment {role : Role} :
    readLine .standard inBlock noteOpen line = .ok (⟨line, role⟩, after) ↔
      Role.ofComment .standard noteOpen line.content (codeBefore line column)
        (line.content.drop (column + "//".toList.length)) = .ok role := by
  rw [readLine_eq_ok_iff]
  simp only [← Role.ofLine_eq_ok_iff]
  constructor
  · rintro ⟨outcome, role', hscan, hrole, hreading, -⟩
    obtain rfl := Option.some.inj (h.symm.trans hscan)
    obtain ⟨-, rfl⟩ := Reading.mk.inj hreading
    exact hrole
  · intro hrole
    exact ⟨_, role, h, hrole, rfl, rfl⟩

/-- A line opens a note exactly if its comment is a marker that does, and it has no code. -/
theorem readLine_opening_iff {id : Option Text} {note : Text} :
    readLine .standard inBlock noteOpen line = .ok (⟨line, .opening id note⟩, after) ↔
      (codeBefore line column).isBlankText ∧
        Spells "@annotate".toList (wordsAt line column) id note :=
  (readLine_eq_ok_iff_ofComment h).trans Role.ofComment_eq_opening_iff

/-- A line closes a note exactly if its comment is a marker that does, and it has no code. -/
theorem readLine_closing_iff {id : Option Text} :
    readLine .standard inBlock noteOpen line = .ok (⟨line, .closing id⟩, after) ↔
      (codeBefore line column).isBlankText ∧
        Spells "@end".toList (wordsAt line column) id [] :=
  (readLine_eq_ok_iff_ofComment h).trans Role.ofComment_eq_closing_iff

/-- A comment with the word of a marker that is no marker, or stands after code, is a defect
    of its line. -/
theorem exists_defect_of_misspelt (hstarts : StartsWith "@annotate".toList (wordsAt line column) ∨
      StartsWith "@end".toList (wordsAt line column))
    (hmisspelt : (codeBefore line column).isBlankText →
      (∀ id note, ¬Spells "@annotate".toList (wordsAt line column) id note) ∧
        ∀ id, ¬Spells "@end".toList (wordsAt line column) id []) :
    ∃ cause, readLine .standard inBlock noteOpen line = .error (.defect ⟨cause, line.number⟩) ∧
      cause.kind = .malformed := by
  cases hrole : Role.ofLine .standard noteOpen line.content (some column) with
  | error cause =>
    refine ⟨cause, ?_, (Role.isOfComment_of_ofLine hrole).kind_eq⟩
    simp only [readLine, h, hrole]
    rfl
  | ok role =>
    -- The line would open or close a note, and so be spelled as a marker.
    rcases Role.ofComment_of_startsWith hstarts hrole with ⟨id, note, rfl⟩ | ⟨id, rfl⟩
    · obtain ⟨hcode, hspells⟩ := Role.ofComment_eq_opening_iff.1 hrole
      exact absurd hspells ((hmisspelt hcode).1 id note)
    · obtain ⟨hcode, hspells⟩ := Role.ofComment_eq_closing_iff.1 hrole
      exact absurd hspells ((hmisspelt hcode).2 id)

end

/-- A comment after an indentation starts where the indentation ends. -/
theorem findComment_indented {indent : Text} (h : ∀ c ∈ indent, Text.isBlank c) (rest : Text) :
    Scan.findComment .standard false (indent ++ "//".toList ++ rest) =
      some ⟨some indent.length, false⟩ := by
  obtain ⟨afterWord, hread⟩ := Scan.Lexer.exists_read_blanks h false
  have hstart : (Scan.Lexer.start false).read indent = .code afterWord := hread
  rw [List.append_assoc]
  exact Scan.findComment_of_read_code hstart rest

/-- A marker that is written alone on its line, with any room around it, starts a comment that
    is this marker. -/
theorem spells_written {word indent room gap trail text : Text} {id : Option Text}
    (hword : word.strip = word) (hne : word ≠ []) (h : CanHave id gap text)
    (hblank : ∀ c ∈ indent ++ room ++ trail, Text.isBlank c)
    (hline : line.content = indent ++ "//".toList ++ (room ++ write word id gap text ++ trail)) :
    Scan.findComment .standard false line.content = some ⟨some indent.length, false⟩ ∧
      (codeBefore line indent.length).isBlankText ∧
      Spells word (wordsAt line indent.length) id text := by
  obtain ⟨hspace, htrail⟩ := List.forall_mem_append.1 hblank
  obtain ⟨hindent, hroom⟩ := List.forall_mem_append.1 hspace
  refine ⟨hline ▸ findComment_indented hindent _, ?_, ?_⟩
  · rw [codeBefore, hline, List.append_assoc, List.take_left]
    exact List.all_eq_true.2 hindent
  · have hrest : line.content.drop (indent.length + "//".toList.length) =
        room ++ write word id gap text ++ trail := by
      rw [hline, ← List.length_append, List.drop_left]
    rw [wordsAt, hrest]
    exact spells_write hword hne h hroom htrail

/-- Whether a line with a comment opens or closes a note, and which markers are defects. -/
structure FollowsGrammar (inBlock noteOpen : Bool) (line : Line) (column : Nat)
    (after : Bool) : Prop where
  opening : ∀ id note,
    readLine .standard inBlock noteOpen line = .ok (⟨line, .opening id note⟩, after) ↔
      (codeBefore line column).isBlankText ∧ Spells "@annotate".toList (wordsAt line column) id note
  closing : ∀ id,
    readLine .standard inBlock noteOpen line = .ok (⟨line, .closing id⟩, after) ↔
      (codeBefore line column).isBlankText ∧ Spells "@end".toList (wordsAt line column) id []
  /-- A comment that starts with a marker's word, but is no marker, is told. -/
  misspelt : StartsWith "@annotate".toList (wordsAt line column) ∨
      StartsWith "@end".toList (wordsAt line column) →
    (∀ id note, ¬Spells "@annotate".toList (wordsAt line column) id note) →
    (∀ id, ¬Spells "@end".toList (wordsAt line column) id []) →
    ∃ cause, readLine .standard inBlock noteOpen line = .error (.defect ⟨cause, line.number⟩) ∧
      cause.kind = .malformed
  /-- So is one that stands after code. -/
  afterCode : StartsWith "@annotate".toList (wordsAt line column) ∨
      StartsWith "@end".toList (wordsAt line column) →
    ¬(codeBefore line column).isBlankText →
    ∃ cause, readLine .standard inBlock noteOpen line = .error (.defect ⟨cause, line.number⟩) ∧
      cause.kind = .malformed

/-- Lines are read as markers exactly if they are written as these, and no marker that is
    written wrong goes unnoticed. So any marker that can be written is read as itself. -/
theorem markers_follow_grammar :
    (∀ inBlock noteOpen after line column,
      Scan.findComment .standard inBlock line.content = some ⟨some column, after⟩ →
        FollowsGrammar inBlock noteOpen line column after) ∧
    ∀ noteOpen line indent room gap trail id note,
      (∀ c ∈ indent ++ room ++ trail, Text.isBlank c) → CanHave id gap note →
        (line.content =
            indent ++ "//".toList ++ (room ++ write "@annotate".toList id gap note ++ trail) →
          readLine .standard false noteOpen line = .ok (⟨line, .opening id note⟩, false)) ∧
        (line.content = indent ++ "//".toList ++ (room ++ write "@end".toList id gap note ++ trail) →
          note = [] → readLine .standard false noteOpen line = .ok (⟨line, .closing id⟩, false)) := by
  constructor
  · intro inBlock noteOpen after line column h
    exact {
      opening := fun _ _ => readLine_opening_iff h
      closing := fun _ => readLine_closing_iff h
      misspelt := fun hstarts hopening hclosing =>
        exists_defect_of_misspelt h hstarts fun _ => ⟨hopening, hclosing⟩
      afterCode := fun hstarts hcode =>
        exists_defect_of_misspelt h hstarts fun hblank => absurd hblank hcode }
  · intro noteOpen line indent room gap trail id note hblank hhave
    refine ⟨fun hline => ?_, fun hline hnote => ?_⟩
    · obtain ⟨hscan, hcode, hspells⟩ := spells_written (by decide) (by decide) hhave hblank hline
      exact (readLine_opening_iff hscan).2 ⟨hcode, hspells⟩
    · subst hnote
      obtain ⟨hscan, hcode, hspells⟩ := spells_written (by decide) (by decide) hhave hblank hline
      exact (readLine_closing_iff hscan).2 ⟨hcode, hspells⟩

/-- A line that opens a note, with blanks around the id and a text at once after it. -/
def spacedLine : Line := ⟨3, "\t// @annotate( a.b-1 )(x) y ".toList, []⟩

/-- A line that opens a note without an id. -/
def bareLine : Line := ⟨4, "  //@annotate\t n (x)  ".toList, ['\n']⟩

theorem markers_follow_grammar_spaced :
    Scan.findComment .standard false spacedLine.content = some ⟨some 1, false⟩ ∧
      FollowsGrammar false true spacedLine 1 false ∧
      readLine .standard false true bareLine =
        .ok (⟨bareLine, .opening none "n (x)".toList⟩, false) :=
  have hscan : Scan.findComment .standard false spacedLine.content = some ⟨some 1, false⟩ := by
    decide
  have hhave : CanHave none "\t ".toList "n (x)".toList :=
    ⟨(fun _ h => by cases h), by decide, List.all_eq_true.1 (by decide), fun _ _ => by decide⟩
  ⟨hscan, markers_follow_grammar.1 _ _ _ _ _ hscan,
    (markers_follow_grammar.2 true bareLine "  ".toList [] "\t ".toList "  ".toList none
      "n (x)".toList (List.all_eq_true.1 (by decide)) hhave).1 rfl⟩

end Marginalia.Extraction
