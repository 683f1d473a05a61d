import Marginalia.Proofs.Extraction.Reading
import Marginalia.Proofs.Note.Anchor
import Marginalia.Proofs.Source.Ending

/-!
# Line ends do not matter

No line end is looked at while a text is read: lines with other line ends are read in the
same way (`readLines_map`). Notes are anchored by the numbers of the lines, and each
displayed line has the line end it had. So texts whose lines have the same contents have
the same defects or the same notes, on displayed code that is the same but for its line
ends.

* `readLines_map`: lines with other line ends are read in the same way;
* `agreeUpToEnds_of_sameContents`: texts with the same contents have extractions that
  agree but for the line ends;
* `extract_crlf`: a carriage return before every newline stays there, and changes nothing
  else.
-/

namespace Marginalia

/-- What is read of the line with another line end. -/
def Reading.mapLine (f : Line → Line) (reading : Reading) : Reading :=
  { reading with line := f reading.line }

namespace Extraction

variable {d : Dialect} {s s' : Text} {inBlock : Bool} {p : Note.Pairing} {f : Line → Line}
  {readings : List Reading} {limit : Option Nat}

/-! ## Reading -/

theorem readOne_map (hf : Line.ChangesEnd f) (line : Line) :
    readOne d inBlock p (f line) =
      Prod.map (Reading.mapLine f) id <$> readOne d inBlock p line := by
  simp only [readOne, readLine, hf.number, hf.content]
  cases Scan.findComment d inBlock line.content with
  | none => rfl
  | some outcome =>
    dsimp only
    cases Role.ofLine d p.isOpen line.content outcome.comment with
    | error cause => rfl
    | ok role =>
      dsimp only [bind, Except.bind, pure, Except.pure]
      rw [hf.number]
      cases (p.feed line.number role).mapError Failure.defect <;> rfl

/-- Lines with other line ends are read in the same way. -/
theorem readLines_map (hf : Line.ChangesEnd f) (lines : List Line) :
    readLines d inBlock p (lines.map f) =
      Prod.map (List.map (Reading.mapLine f)) id <$> readLines d inBlock p lines := by
  induction lines generalizing inBlock p with
  | nil => rfl
  | cons line lines ih =>
    rw [List.map_cons, readLines_cons, readLines_cons, readOne_map hf]
    cases readOne d inBlock p line with
    | error failure => rfl
    | ok read =>
      obtain ⟨reading, inBlock', p'⟩ := read
      simp only [Functor.map, Except.map, bind, Except.bind, Prod.map, id, ih]
      cases readLines d inBlock' p' lines <;> rfl

/-! ## Anchoring and displaying -/

/-- The notes on the displayed code and the orphans, once the lines are read. -/
def settled (limit : Option Nat) (readings : List Reading) (p : Note.Pairing) :
    Except Failure (List Note × List Orphan) := do
  let pending ← p.finish.mapError .defect
  (Note.anchor pending readings (Display.ofReadings readings) limit).mapError .fault

theorem extract_eq (d : Dialect) (s : Text) (limit : Option Nat) :
    extract d s limit = readLines d false {} (Line.split s) >>= fun read =>
      (fun found => ⟨(Display.ofReadings read.1).code, found.1, found.2⟩) <$>
        settled limit read.1 read.2 := by
  rw [extract]
  cases readLines d false {} (Line.split s) with
  | error failure => rfl
  | ok read =>
    obtain ⟨readings, p⟩ := read
    rw [ok_bind, ok_bind, settled]
    dsimp only
    cases p.finish.mapError Failure.defect with
    | error failure => rfl
    | ok pending =>
      rw [ok_bind, ok_bind]
      cases (Note.anchor pending readings (Display.ofReadings readings) limit).mapError
        Failure.fault <;> rfl

theorem map_role_mapLine (f : Line → Line) (readings : List Reading) :
    (readings.map (Reading.mapLine f)).map (·.role) = readings.map (·.role) := List.map_map

theorem kept_mapLine (hf : Line.ChangesEnd f) (readings : List Reading) :
    (Display.ofReadings (readings.map (Reading.mapLine f))).kept =
      (Display.ofReadings readings).kept := by
  simp only [Display.ofReadings, List.filter_map, List.map_map]
  exact List.map_congr_left fun reading _ => hf.number reading.line

/-- The notes do not depend on the line ends. -/
theorem settled_mapLine (hf : Line.ChangesEnd f) (readings : List Reading) (p : Note.Pairing) :
    settled limit (readings.map (Reading.mapLine f)) p = settled limit readings p := by
  simp only [settled, Note.anchor_congr (map_role_mapLine f readings) (kept_mapLine hf readings)]

/-- What is displayed of the lines depends on what they are. -/
theorem Reads.map_content_code {after : Bool} {q : Note.Pairing}
    (h : Reads d inBlock p (Line.split s) readings after q) :
    (Line.split (Display.ofReadings readings).code).map (·.content) =
      (readings.map (·.role)).filterMap (·.shown?) := by
  rw [Line.map_content_split, h.pieces_code, Display.displayed, List.map_filterMap,
    List.filterMap_map]
  refine List.filterMap_congr fun reading _ => ?_
  rw [Display.shownPiece?, Option.map_map]
  exact Option.map_id'

/-! ## Texts with the same contents -/

/-- The answers are the same but for the line ends of the displayed code. -/
inductive AgreeUpToEnds : Except Failure Extraction → Except Failure Extraction → Prop
  | error {failure : Failure} : AgreeUpToEnds (.error failure) (.error failure)
  | ok {e e' : Extraction} : e.notes = e'.notes → e.orphans = e'.orphans →
      Line.SameContents e.code e'.code → AgreeUpToEnds (.ok e) (.ok e')

/-- Texts whose lines have the same contents have the same failure or the same notes. -/
theorem agreeUpToEnds_of_sameContents (h : Line.SameContents s s') :
    AgreeUpToEnds (extract d s limit) (extract d s' limit) := by
  have hbare := Line.changesEnd_bare
  have hsame := congrArg (readLines d false {}) h.map_bare
  rw [readLines_map hbare, readLines_map hbare] at hsame
  rw [extract_eq, extract_eq]
  cases hs : readLines d false {} (Line.split s) with
  | error failure =>
    rw [hs] at hsame
    rw [map_eq_error.1 hsame.symm]
    exact .error
  | ok read =>
    obtain ⟨readings, p⟩ := read
    rw [hs] at hsame
    obtain ⟨⟨readings', p'⟩, hs', heq⟩ := map_eq_ok.1 hsame.symm
    obtain ⟨hreadings, rfl : p' = p⟩ := Prod.mk.inj heq
    obtain ⟨_, hreads⟩ := readLines_eq_ok_iff.1 hs
    obtain ⟨_, hreads'⟩ := readLines_eq_ok_iff.1 hs'
    have hcode : Line.SameContents (Display.ofReadings readings).code
        (Display.ofReadings readings').code := by
      rw [Line.SameContents, hreads.map_content_code, hreads'.map_content_code,
        ← map_role_mapLine Line.bare readings, ← map_role_mapLine Line.bare readings', hreadings]
    have hsettled : settled limit readings' p' = settled limit readings p' := by
      rw [← settled_mapLine hbare, hreadings, settled_mapLine hbare]
    rw [hs', ok_bind, ok_bind, hsettled]
    cases settled limit readings p' with
    | error failure => exact .error
    | ok found => exact .ok rfl rfl hcode

/-! ## Carriage returns -/

/-- The displayed code has the carriage returns of the lines that are displayed. -/
theorem Reads.code_withCrlf {after : Bool} {q : Note.Pairing}
    (h : Reads d inBlock p (Line.split s) readings after q) :
    (Display.ofReadings (readings.map (Reading.mapLine Line.withCrlf))).code =
      Line.crlf (Display.ofReadings readings).code := by
  have hdisplayed : Display.displayed (readings.map (Reading.mapLine Line.withCrlf)) =
      (Display.displayed readings).map fun piece => (piece.1, Line.crlf piece.2) := by
    rw [Display.displayed, Display.displayed, List.filterMap_map, List.map_filterMap]
    refine List.filterMap_congr fun reading _ => ?_
    rw [Function.comp_apply, Display.shownPiece?, Display.shownPiece?, Option.map_map]
    rfl
  have hnewline : ∀ piece ∈ Display.displayed readings, '\n' ∉ piece.1 := by
    rw [← h.pieces_code]
    exact fun _ => Line.newline_not_mem_pieces
  rw [Display.code_ofReadings, hdisplayed, Display.code_ofReadings, Line.crlf_joinPieces hnewline]

/-- With a carriage return before every newline, a text has the same notes on the code
    with these carriage returns. -/
theorem extract_crlf (hcr : '\r' ∉ s) :
    extract d (Line.crlf s) limit =
      (fun e => { e with code := Line.crlf e.code }) <$> extract d s limit := by
  rw [extract_eq, extract_eq, Line.split_crlf hcr, readLines_map Line.changesEnd_withCrlf]
  cases hs : readLines d false {} (Line.split s) with
  | error failure => rfl
  | ok read =>
    obtain ⟨readings, p⟩ := read
    obtain ⟨_, hreads⟩ := readLines_eq_ok_iff.1 hs
    have hread : Prod.map (List.map (Reading.mapLine Line.withCrlf)) id <$>
        (Except.ok (readings, p) : Except Failure _) =
          .ok (readings.map (Reading.mapLine Line.withCrlf), p) := rfl
    rw [hread, ok_bind, ok_bind, settled_mapLine Line.changesEnd_withCrlf, hreads.code_withCrlf]
    cases settled limit readings p <;> rfl

/-! ## Line ends -/

/-- Extraction does not look at line ends. -/
structure IsBlindToLineEnds (d : Dialect) (limit : Option Nat) : Prop where
  /-- Of texts with the same contents, either both have the same failure, or both have the
      same notes and orphans, on codes with the same contents. -/
  contents : ∀ s s', Line.SameContents s s' →
    AgreeUpToEnds (extract d s limit) (extract d s' limit)
  /-- A text with carriage returns added has them in its code, and nothing else changes. -/
  crlf : ∀ s, '\r' ∉ s → extract d (Line.crlf s) limit =
    (fun e => { e with code := Line.crlf e.code }) <$> extract d s limit

/-- Extraction does not look at line ends, whatever the dialect and the limit. -/
theorem extract_isBlindToLineEnds (d : Dialect) (limit : Option Nat) :
    IsBlindToLineEnds d limit where
  contents _ _ := agreeUpToEnds_of_sameContents
  crlf _ := extract_crlf

/-- A note, a remark and a note between markers, on lines with both line ends of which
    the last one has none. -/
def mixedSource : Text :=
  "a();\r\n// NOTE: n\nb(); // NOTE: m\r\n// @annotate W\n\r\nc();\n// @end".toList

/-- The same lines, each ended by a newline. -/
def newlineSource : Text :=
  "a();\n// NOTE: n\nb(); // NOTE: m\n// @annotate W\n\nc();\n// @end\n".toList

def newlineExtraction : Extraction where
  code := "a();\nb();\n\nc();\n".toList
  notes := [⟨1, 1, "n".toList, none, none, 0⟩, ⟨1, 1, "m".toList, some 4, none, 0⟩,
    ⟨2, 3, "W".toList, none, none, 0⟩]
  orphans := []

theorem extract_isBlindToLineEnds_newlines :
    Line.SameContents newlineSource mixedSource ∧ '\r' ∉ newlineSource ∧
      extract .standard newlineSource = .ok newlineExtraction ∧
      AgreeUpToEnds (extract .standard newlineSource) (extract .standard mixedSource) ∧
      extract .standard (Line.crlf newlineSource) =
        .ok { newlineExtraction with code := Line.crlf newlineExtraction.code } := by
  have hsame : Line.SameContents newlineSource mixedSource := by decide +kernel
  have hcr : '\r' ∉ newlineSource := by decide +kernel
  have hextract : extract .standard newlineSource = .ok newlineExtraction :=
    toOption_eq_some.1 (by decide +kernel)
  have hblind := extract_isBlindToLineEnds .standard none
  refine ⟨hsame, hcr, hextract, hblind.contents _ _ hsame, ?_⟩
  rw [hblind.crlf _ hcr, hextract]
  rfl

end Extraction

end Marginalia
