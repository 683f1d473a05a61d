import Marginalia.Extraction
import Marginalia.Proofs.Marker.Role
import Marginalia.Proofs.Note.Display
import Marginalia.Proofs.Note.Pairing

/-!
# Reading a text line by line

Reading a line scans it for a comment, makes of it what the comment says and
takes it in (`Reads`). The lines of a text are read in the order of their
numbers, which start from 0 (`Numbered`).

* `readLines_cons`: lines are read one by one (`readOne`);
* `readLines_eq_ok_iff`: reading lines is this relation;
* `Reads.of_append`: reading lines is reading some of them and then the others;
* `Reads.run`: what is read is a run of the pairing of markers;
* `Reads.numbered`: the lines of a text are numbered from 0.
-/

namespace Marginalia

theorem Numbered.ordered {readings : List Reading} (h : Numbered readings) :
    Note.Pairing.Ordered readings := by
  refine List.pairwise_iff_getElem.2 fun i j hi hj hij => ?_
  rw [h i _ (List.getElem?_eq_getElem hi), h j _ (List.getElem?_eq_getElem hj)]
  exact hij

/-- Whether a block comment is open after some lines, if it is known whether one is
    before them. -/
def Scan.stateAfter (d : Dialect) (inBlock : Bool) : List Line → Option Bool
  | [] => some inBlock
  | line :: rest => do
    let outcome ← findComment d inBlock line.content
    stateAfter d outcome.inBlock rest

namespace Extraction

/-- Reading lines from a state of the scan and a pairing gives these readings and
    leaves that state and pairing. -/
inductive Reads (d : Dialect) :
    Bool → Note.Pairing → List Line → List Reading → Bool → Note.Pairing → Prop
  | nil {inBlock : Bool} {p : Note.Pairing} : Reads d inBlock p [] [] inBlock p
  | cons {inBlock after : Bool} {p p' q : Note.Pairing} {line : Line} {lines : List Line}
    {outcome : Scan.Outcome} {role : Role} {readings : List Reading} :
    Scan.findComment d inBlock line.content = some outcome →
      Role.IsRole d p.isOpen line.content outcome.comment role →
      Note.Pairing.Step p line.number role p' →
      Reads d outcome.inBlock p' lines readings after q →
      Reads d inBlock p (line :: lines) (⟨line, role⟩ :: readings) after q

variable {d : Dialect} {inBlock inBlock' after : Bool} {p q r : Note.Pairing}
  {lines lines' : List Line} {readings readings' : List Reading}

/-- Reads a line and takes in what it is. -/
def readOne (d : Dialect) (inBlock : Bool) (p : Note.Pairing) (line : Line) :
    Except Failure (Reading × Bool × Note.Pairing) := do
  let (reading, inBlock) ← readLine d inBlock p.isOpen line
  let p ← (p.feed reading.line.number reading.role).mapError .defect
  return (reading, inBlock, p)

/-- Lines are read one by one. -/
theorem readLines_cons (line : Line) (rest : List Line) :
    readLines d inBlock p (line :: rest) = (do
      let (reading, inBlock, p) ← readOne d inBlock p line
      let (readings, p) ← readLines d inBlock p rest
      return (reading :: readings, p)) := by
  rw [readLines, readOne]
  cases readLine d inBlock p.isOpen line with
  | error failure => rfl
  | ok read =>
    dsimp only [bind, Except.bind]
    cases (p.feed read.1.line.number read.1.role).mapError Failure.defect <;> rfl

theorem readLine_eq_ok_iff {noteOpen : Bool} {line : Line} {reading : Reading} :
    readLine d inBlock noteOpen line = .ok (reading, after) ↔
      ∃ outcome role, Scan.findComment d inBlock line.content = some outcome ∧
        Role.IsRole d noteOpen line.content outcome.comment role ∧
        reading = ⟨line, role⟩ ∧ after = outcome.inBlock := by
  unfold readLine
  simp only [← Role.ofLine_eq_ok_iff]
  constructor
  · intro h
    split at h
    · cases h
    · rename_i outcome hscan
      split at h
      · rename_i role hrole
        obtain ⟨rfl, rfl⟩ := Prod.mk.inj (Except.ok.inj h)
        exact ⟨outcome, role, hscan, hrole, rfl, rfl⟩
      · cases h
  · rintro ⟨outcome, role, hscan, hrole, rfl, rfl⟩
    simp only [hscan, hrole]
    rfl

theorem readOne_eq_ok_iff {line : Line} {reading : Reading} :
    readOne d inBlock p line = .ok (reading, after, q) ↔
      ∃ outcome role, Scan.findComment d inBlock line.content = some outcome ∧
        Role.IsRole d p.isOpen line.content outcome.comment role ∧
        Note.Pairing.Step p line.number role q ∧
        reading = ⟨line, role⟩ ∧ after = outcome.inBlock := by
  simp only [readOne, bind_eq_ok, mapError_eq_ok, Note.Pairing.feed, Note.Pairing.apply_eq_ok_iff]
  constructor
  · rintro ⟨⟨reading', inBlock'⟩, hline, p', hstep, h⟩
    obtain ⟨outcome, role, hscan, hrole, rfl, rfl⟩ := readLine_eq_ok_iff.1 hline
    simp only [pure, Except.pure, Except.ok.injEq, Prod.mk.injEq] at h
    obtain ⟨rfl, rfl, rfl⟩ := h
    exact ⟨outcome, role, hscan, hrole, hstep, rfl, rfl⟩
  · rintro ⟨outcome, role, hscan, hrole, hstep, rfl, rfl⟩
    exact ⟨_, readLine_eq_ok_iff.2 ⟨outcome, role, hscan, hrole, rfl, rfl⟩, q, hstep, rfl⟩

theorem readLines_eq_ok_iff :
    readLines d inBlock p lines = .ok (readings, q) ↔
      ∃ after, Reads d inBlock p lines readings after q := by
  induction lines generalizing inBlock p readings with
  | nil =>
    constructor
    · intro h
      obtain ⟨rfl, rfl⟩ := Prod.mk.inj (Except.ok.inj h)
      exact ⟨inBlock, .nil⟩
    · rintro ⟨_, h⟩
      cases h
      rfl
  | cons line lines ih =>
    simp only [readLines_cons, bind_eq_ok]
    constructor
    · rintro ⟨⟨reading, inBlock', p'⟩, hline, ⟨readings', q'⟩, hrest, h⟩
      obtain ⟨outcome, role, hscan, hrole, hstep, rfl, rfl⟩ := readOne_eq_ok_iff.1 hline
      obtain ⟨rfl, rfl⟩ := Prod.mk.inj (Except.ok.inj h)
      obtain ⟨after, hrest⟩ := ih.1 hrest
      exact ⟨after, .cons hscan hrole hstep hrest⟩
    · rintro ⟨after, h⟩
      cases h with
      | cons hscan hrole hstep hrest =>
        exact ⟨_, readOne_eq_ok_iff.2 ⟨_, _, hscan, hrole, hstep, rfl, rfl⟩, _,
          ih.2 ⟨after, hrest⟩, rfl⟩

namespace Reads

theorem append (h : Reads d inBlock p lines readings inBlock' q)
    (h' : Reads d inBlock' q lines' readings' after r) :
    Reads d inBlock p (lines ++ lines') (readings ++ readings') after r := by
  induction h with
  | nil => exact h'
  | cons hscan hrole hstep _ ih => exact .cons hscan hrole hstep (ih h')

theorem of_append (h : Reads d inBlock p (lines ++ lines') readings after q) :
    ∃ inBlock' p' readings₁ readings₂, readings = readings₁ ++ readings₂ ∧
      Reads d inBlock p lines readings₁ inBlock' p' ∧
      Reads d inBlock' p' lines' readings₂ after q := by
  induction lines generalizing inBlock p readings with
  | nil => exact ⟨inBlock, p, [], readings, rfl, .nil, h⟩
  | cons line lines ih =>
    cases h with
    | cons hscan hrole hstep hrest =>
      obtain ⟨inBlock', p', readings₁, readings₂, rfl, h₁, h₂⟩ := ih hrest
      exact ⟨inBlock', p', _ :: readings₁, readings₂, rfl, .cons hscan hrole hstep h₁, h₂⟩

theorem stateAfter_eq (h : Reads d inBlock p lines readings after q) :
    Scan.stateAfter d inBlock lines = some after := by
  induction h with
  | nil => rfl
  | cons hscan _ _ _ ih => rw [Scan.stateAfter, hscan, Option.bind_eq_bind, Option.bind_some, ih]

/-- Each line is read once. -/
theorem map_line (h : Reads d inBlock p lines readings after q) :
    readings.map (·.line) = lines := by
  induction h with
  | nil => rfl
  | cons _ _ _ _ ih => rw [List.map_cons, ih]

/-- The first lines are read as the first readings. -/
theorem take (h : Reads d inBlock p lines readings after q) (n : Nat) :
    ∃ inBlock' p', Reads d inBlock p (lines.take n) (readings.take n) inBlock' p' := by
  rw [← List.take_append_drop n lines] at h
  obtain ⟨inBlock', p', readings₁, readings₂, rfl, h₁, h₂⟩ := h.of_append
  have hlength₁ := congrArg List.length h₁.map_line
  have hlength₂ := congrArg List.length h₂.map_line
  rw [List.length_map, List.length_take] at hlength₁
  rw [List.length_map, List.length_drop] at hlength₂
  have htake : (readings₁ ++ readings₂).take n = readings₁ := by
    rcases Nat.le_total n lines.length with hle | hle
    · exact List.take_left' (by omega)
    · have hnil : readings₂ = [] := List.length_eq_zero_iff.1 (by omega)
      rw [hnil, List.append_nil, List.take_of_length_le (by omega)]
  rw [htake]
  exact ⟨inBlock', p', h₁⟩

theorem run (h : Reads d inBlock p lines readings after q) : Note.Pairing.Run p readings q := by
  induction h with
  | nil => exact .nil
  | cons _ _ hstep _ ih => exact .cons hstep ih

theorem numbered {source : Text} (h : Reads d inBlock p (Line.split source) readings after q) :
    Numbered readings := by
  intro i reading hi
  refine Line.number_of_getElem?_split (s := source) ?_
  rw [← h.map_line, List.getElem?_map, hi]
  rfl

theorem exists_isRole (h : Reads d inBlock p lines readings after q) {reading : Reading}
    (hr : reading ∈ readings) : ∃ noteOpen inBlock outcome,
      Scan.findComment d inBlock reading.line.content = some outcome ∧
        Role.IsRole d noteOpen reading.line.content outcome.comment reading.role := by
  induction h with
  | nil => cases hr
  | cons hscan hrole _ _ ih =>
    rcases List.mem_cons.1 hr with rfl | hr
    · exact ⟨_, _, _, hscan, hrole⟩
    · exact ih hr

/-- The notes of a text are written on its lines. -/
theorem isWritten {source : Text} (h : Reads d inBlock {} (Line.split source) readings after q) :
    q.IsWritten readings :=
  h.run.isWritten h.numbered.ordered

/-! ## The lines of the displayed code -/

/-- What is displayed of a line is the line or a shorter one without a blank at
    its end, with the same line end. -/
theorem shownPiece_cases (h : Reads d inBlock p lines readings after q) {reading : Reading}
    (hr : reading ∈ readings) {piece : Text × Text} (hp : Display.shownPiece? reading = some piece) :
    piece = reading.line.piece ∨ piece.1 <+: reading.line.content ∧ piece.1 ≠ [] ∧
      (∀ c, piece.1.getLast? = some c → ¬Text.isBlank c) ∧ piece.2 = reading.line.ending := by
  obtain ⟨shown, hs, rfl⟩ := Option.map_eq_some_iff.1 hp
  obtain ⟨noteOpen, _, outcome, _, hrole⟩ := h.exists_isRole hr
  obtain ⟨hstart, hshorter⟩ := hrole.shown_isPrefix hs
  by_cases hall : shown = reading.line.content
  · exact .inl (by rw [hall]; rfl)
  · exact .inr ⟨hstart, (hshorter hall).1, (hshorter hall).2, rfl⟩

/-- What is displayed of a line may stand where the line stood. -/
theorem ended_of_shownPiece? (h : Reads d inBlock p lines readings after q) {reading : Reading}
    (hr : reading ∈ readings) {piece : Text × Text} (hp : Display.shownPiece? reading = some piece)
    (he : Line.Ended reading.line.piece) : Line.Ended piece := by
  rcases h.shownPiece_cases hr hp with rfl | ⟨hstart, _, hlast, hending⟩
  · exact he
  · refine ⟨fun hn => he.1 (hstart.subset hn), ?_⟩
    rw [hending]
    exact he.2.imp_right fun hnewline => ⟨hnewline.1, fun hcr => hlast _ hcr (by decide)⟩

theorem unended_of_shownPiece? (h : Reads d inBlock p lines readings after q) {reading : Reading}
    (hr : reading ∈ readings) {piece : Text × Text} (hp : Display.shownPiece? reading = some piece)
    (hu : Line.Unended reading.line.piece) : Line.Unended piece := by
  rcases h.shownPiece_cases hr hp with rfl | ⟨hstart, hne, _, hending⟩
  · exact hu
  · exact ⟨fun hn => hu.1 (hstart.subset hn), hne, hending.trans hu.2.2⟩

/-- The lines of the displayed code of a text are the displayed lines. -/
theorem pieces_code {source : Text}
    (h : Reads d inBlock p (Line.split source) readings after q) :
    Line.pieces (Display.ofReadings readings).code = Display.displayed readings := by
  have hlines : Line.AreLines (readings.map (·.line.piece)) := by
    have := Line.areLines_pieces source
    rwa [← Line.map_piece_split, ← h.map_line, List.map_map] at this
  rw [Display.code_ofReadings, Line.pieces_join]
  exact hlines.filterMap (fun _ hr _ => h.ended_of_shownPiece? hr)
    (fun _ hr _ => h.unended_of_shownPiece? hr)

end Reads

end Extraction

end Marginalia
