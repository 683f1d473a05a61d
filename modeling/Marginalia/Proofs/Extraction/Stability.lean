import Marginalia.Proofs.Extraction.Account
import Marginalia.Proofs.Source.Comment

/-!
# The displayed code has no notes left in it

A line that is not displayed starts outside a block comment and ends outside one,
and a line cut before its note ends as the whole line does. So whether a line
starts in a block comment is the same in the source text and in the displayed
code, and every line of the displayed code is read as a line of code.

* `Reads.plain`: the displayed lines, read by themselves;
* `Reads.stateAfter_displayed`: whether a block comment is open after them;
* `displayed_code_is_stable`: the displayed code is its own extraction.
-/

namespace Marginalia

/-- The reading of a line that is code and nothing else. -/
def Reading.ofPlain (line : Line) : Reading := ⟨line, .plain line.content none⟩

namespace Extraction

variable {inBlock after noteOpen : Bool} {p q : Note.Pairing} {lines shown : List Line}
  {readings : List Reading} {line : Text} {outcome : Scan.Outcome} {role : Role}

/-! ## A line by itself -/

/-- What is displayed of a line ends in a block comment if the line does, and is
    read as code. -/
theorem findComment_shown {shown : Text}
    (hscan : Scan.findComment .standard inBlock line = some outcome)
    (hrole : Role.IsRole .standard noteOpen line outcome.comment role)
    (hshown : role.shown? = some shown) :
    ∃ outcome', Scan.findComment .standard inBlock shown = some outcome' ∧
      outcome'.inBlock = outcome.inBlock ∧
      Role.IsRole .standard false shown outcome'.comment (.plain shown none) := by
  cases role with
  | plain shown' remark =>
    obtain rfl := Option.some.inj hshown
    -- The line is displayed whole, or what is before its comment.
    rcases hrole.shown_cases with ⟨rfl, rfl⟩ | ⟨start, text, hcolumn, _, rfl, _⟩
    · exact ⟨outcome, hscan, rfl, hrole.plain_self fun h => absurd h (by decide)⟩
    · obtain ⟨comment, after⟩ := outcome
      obtain rfl : comment = some start := hcolumn
      obtain ⟨rfl, _⟩ := Scan.exists_of_findComment hscan
      exact ⟨_, Scan.findComment_stripEnd_take hscan, rfl, .bare⟩
  | opening | closing | body | note => cases hshown

/-- A line that is not displayed neither starts nor ends in a block comment. -/
theorem inBlock_of_not_isKept (hscan : Scan.findComment .standard inBlock line = some outcome)
    (hrole : Role.IsRole .standard noteOpen line outcome.comment role) (hk : ¬role.isKept) :
    inBlock = false ∧ outcome.inBlock = false := by
  obtain ⟨start, hcolumn, hblank⟩ := hrole.alone_of_not_isKept hk
  obtain ⟨comment, after⟩ := outcome
  obtain rfl : comment = some start := hcolumn
  exact ⟨Scan.inBlock_eq_false_of_isBlankText hscan hblank, (Scan.exists_of_findComment hscan).1⟩

/-! ## The lines one after the other -/

/-- The displayed lines and no others are read as code, wherever they are. -/
theorem Reads.plain (h : Reads .standard inBlock p lines readings after q)
    (hs : shown.map Line.piece = Display.displayed readings) :
    Reads .standard inBlock {} shown (shown.map Reading.ofPlain) after {} := by
  induction h generalizing shown with
  | nil =>
    obtain rfl := List.map_eq_nil_iff.1 hs
    exact .nil
  | @cons inBlock _ _ _ _ line _ outcome role readings hscan hrole _ _ ih =>
    rw [Display.displayed, List.filterMap_cons] at hs
    cases hshown : role.shown? with
    | none =>
      have hk : ¬role.isKept := by rw [Role.isKept, hshown]; simp
      -- The line after it starts as this one does.
      obtain ⟨rfl, hafter⟩ := inBlock_of_not_isKept hscan hrole hk
      rw [hafter] at ih
      simp only [Display.shownPiece?, hshown, Option.map_none] at hs
      exact ih hs
    | some content =>
      simp only [Display.shownPiece?, hshown, Option.map_some] at hs
      obtain ⟨first, rest, rfl, hpiece, hrest⟩ := List.map_eq_cons_iff.1 hs
      obtain ⟨rfl, _⟩ := Prod.mk.inj hpiece
      obtain ⟨outcome', hscan', hafter, hrole'⟩ := findComment_shown hscan hrole hshown
      rw [← hafter] at ih
      exact .cons hscan' hrole' .plain (ih hrest)

/-- After some lines and after what is displayed of them, a block comment is open
    alike. -/
theorem Reads.stateAfter_displayed (h : Reads .standard inBlock p lines readings after q)
    (hs : shown.map Line.piece = Display.displayed readings) (n : Nat) :
    ∃ inBlock', Scan.stateAfter .standard inBlock (lines.take n) = some inBlock' ∧
      Scan.stateAfter .standard inBlock (shown.take (Display.shownBefore readings n)) =
        some inBlock' := by
  obtain ⟨inBlock', p', hn⟩ := h.take n
  have hdisplayed := Display.displayed_between readings (Nat.zero_le n)
  rw [← hs, ← List.map_drop, ← List.map_take] at hdisplayed
  exact ⟨inBlock', hn.stateAfter_eq, (hn.plain hdisplayed).stateAfter_eq⟩

/-! ## The displayed code -/

/-- Lines that are code and nothing else are displayed as they are. -/
theorem code_ofPlain (lines : List Line) :
    (Display.ofReadings (lines.map Reading.ofPlain)).code = Line.join lines := by
  have hpiece : Display.shownPiece? ∘ Reading.ofPlain = some ∘ Line.piece := rfl
  rw [Display.code_ofReadings, Line.join_eq_joinPieces, Display.displayed, List.filterMap_map, hpiece,
    List.filterMap_eq_map]

/-- A text of lines that are all code is its own extraction. -/
theorem extract_of_reads_plain {d : Dialect} {code : Text}
    (h : Reads d false {} (Line.split code) ((Line.split code).map Reading.ofPlain) after {})
    (limit : Option Nat) : extract d code limit = .ok ⟨code, [], []⟩ := by
  obtain ⟨fates, hnone, _, hextract⟩ := extract_of_reads h
  obtain rfl := List.map_eq_nil_iff.1 hnone
  rw [extract_of_reads_of_not_isBeyond h limit (fun _ hnote => absurd hnote List.not_mem_nil),
    hextract, code_ofPlain, Line.join_split]
  rfl

/-- The displayed code of a text is its own extraction, without notes and whatever the
    limit. All its lines are read as code, and a block comment goes over the same of
    them as in the source text. -/
theorem displayed_code_is_stable {source : Text} {e : Extraction} {limit : Option Nat}
    (h : extract .standard source limit = .ok e) :
    (∀ limit, extract .standard e.code limit = .ok ⟨e.code, [], []⟩) ∧
      readLines .standard false {} (Line.split e.code) =
        .ok ((Line.split e.code).map Reading.ofPlain, {}) ∧
      ∃ a : Account .standard source e, ∀ n, ∃ inBlock,
        Scan.stateAfter .standard false ((Line.split source).take n) = some inBlock ∧
        Scan.stateAfter .standard false
          ((Line.split e.code).take (Display.shownBefore a.readings n)) = some inBlock := by
  obtain ⟨a, _⟩ := exists_account h
  obtain ⟨after, hreads⟩ := a.exists_reads
  have hshown := a.map_piece_split_code
  have hplain := hreads.plain hshown
  exact ⟨extract_of_reads_plain hplain, readLines_eq_ok_iff.2 ⟨after, hplain⟩, a,
    hreads.stateAfter_displayed hshown⟩

/-- A text with a line cut after a block comment and before another kind of line
    end. -/
def cutSource : Text := "/* a\n*/ x // NOTE: n\r\n// @annotate A\ny\n// @end".toList

def cutExtraction : Extraction where
  code := "/* a\n*/ x\r\ny\n".toList
  notes := [⟨1, 1, "n".toList, some 4, none, 0⟩, ⟨2, 2, "A".toList, none, none, 0⟩]
  orphans := []

theorem displayed_code_is_stable_cut :
    extract .standard cutSource = .ok cutExtraction ∧
      ∀ limit, extract .standard cutExtraction.code limit = .ok ⟨cutExtraction.code, [], []⟩ :=
  have h : extract .standard cutSource = .ok cutExtraction :=
    toOption_eq_some.1 (by decide +kernel)
  ⟨h, (displayed_code_is_stable h).1⟩

end Extraction

end Marginalia
