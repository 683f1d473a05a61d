import Marginalia.Proofs.Extraction.Reading
import Marginalia.Proofs.Note.Fate

/-!
# How an extraction comes about

An extraction says what is displayed and which notes are on it, but no longer
which lines of the source text they come from. An *account* of it does
(`Account`): what each line was read as, and what became of each note that was
closed.

* `extract_of_reads`: a text whose lines can be read and whose notes are all
  closed has an extraction;
* `extract_agrees`: a limit to how deep searches for lines are nested changes nothing
  but that a text may be beyond it (`IsTooDeep`);
* `exists_account`: every extraction has an account, whatever the limit.
-/

namespace Marginalia.Extraction

variable {d : Dialect} {source : Text} {e : Extraction} {readings : List Reading}
  {limit : Option Nat}

/-- A text whose lines can be read and whose notes are all closed has an
    extraction, with a fate for each note. -/
theorem extract_of_reads {after : Bool} {pending : List Note.Pending}
    (h : Reads d false {} (Line.split source) readings after ⟨[], pending⟩) :
    ∃ fates : List Note.Fate, fates.map (·.pending) = pending ∧
      (∀ fate ∈ fates, ∃ found, fate.IsSettled readings (Note.blocksOf pending) found) ∧
      extract d source = .ok
        ⟨(Display.ofReadings readings).code, fates.filterMap (·.note), fates.filterMap (·.orphan?)⟩ := by
  obtain ⟨fates, hmap, hanchor, hsettled⟩ := Note.exists_anchor h.numbered h.isWritten.closed
  refine ⟨fates, hmap, hsettled, ?_⟩
  exact bind_eq_ok.2 ⟨_, readLines_eq_ok_iff.2 ⟨after, h⟩,
    bind_eq_ok.2 ⟨pending, rfl, bind_eq_ok.2 ⟨_, mapError_eq_ok.2 hanchor, rfl⟩⟩⟩

/-- The lines of the text can be read and its notes are all closed, and one of them is in
    more than `n` others, each in the next, of which only the last may find lines by
    itself, as the note does not. -/
def HasSunkNote (d : Dialect) (source : Text) (n : Nat) : Prop :=
  ∃ readings after pending, Reads d false {} (Line.split source) readings after ⟨[], pending⟩ ∧
    ∃ note ∈ pending, Note.IsSunk (rolesOf readings) (Note.blocksOf pending) (n + 1) note

/-- Searches for the lines of notes are nested too deeply, as the notes are. -/
structure IsTooDeep (d : Dialect) (source : Text) (limit : Option Nat) (failure : Failure) :
    Prop where
  failure_eq : failure = .fault .tooDeep
  exists_sunk : ∃ n, limit = some n ∧ HasSunkNote d source n

/-- A limit changes nothing but that a text may be beyond it. -/
theorem extract_agrees (d : Dialect) (source : Text) (limit : Option Nat) :
    AgreesUnless (IsTooDeep d source limit) (extract d source limit) (extract d source) := by
  rw [extract, extract]
  refine (AgreesUnless.refl _).bind fun read hread => ?_
  obtain ⟨readings, pairing⟩ := read
  refine (AgreesUnless.refl _).bind fun pending hpending => ?_
  obtain ⟨stack, closed⟩ := pairing
  cases stack with
  | cons => cases hpending
  | nil =>
    obtain rfl := Except.ok.inj hpending
    obtain ⟨after, hreads⟩ := readLines_eq_ok_iff.1 hread
    have hanchor := Note.anchor_agrees closed readings (Display.ofReadings readings) limit
    refine (hanchor.mapError ?_).bind fun settled _ => .refl _
    rintro fault ⟨note, hnote, rfl, n, hlimit, hsunk⟩
    exact ⟨rfl, n, hlimit, readings, after, closed, hreads, note, hnote, hsunk⟩

/-- A text with none of its notes beyond the limit has the extraction it has without one. -/
theorem extract_of_reads_of_not_isBeyond {after : Bool} {pending : List Note.Pending}
    (h : Reads d false {} (Line.split source) readings after ⟨[], pending⟩) (limit : Option Nat)
    (hnot : ∀ note ∈ pending, ¬note.IsBeyond (rolesOf readings) (Note.blocksOf pending) limit) :
    extract d source limit = extract d source := by
  refine (extract_agrees d source limit).eq_of_not ?_
  rintro failure ⟨-, n, hlimit, readings', after', pending', h', note, hnote, hsunk⟩
  have hread := readLines_eq_ok_iff.2 ⟨after, h⟩
  rw [readLines_eq_ok_iff.2 ⟨after', h'⟩] at hread
  obtain ⟨rfl, hpairing⟩ := Prod.mk.inj (Except.ok.inj hread)
  obtain ⟨-, rfl⟩ := Note.Pairing.mk.inj hpairing
  exact hnot note hnote ⟨n, hlimit, hsunk⟩

/-- Defects of a text are told whatever the limit: the text is not read any further. -/
theorem extract_eq_defect_iff {defect : Defect} :
    extract d source limit = .error (.defect defect) ↔
      extract d source = .error (.defect defect) := by
  constructor
  · intro h
    refine (extract_agrees d source limit).eq_error h ?_
    rintro ⟨hfailure, -⟩
    cases hfailure
  · intro h
    rcases extract_agrees d source limit with heq | ⟨_, ⟨-, _, -, _, _, _, hreads, -⟩, -⟩
    · exact heq.trans h
    · obtain ⟨_, -, -, hextract⟩ := extract_of_reads hreads
      cases h.symm.trans hextract

/-- What is extracted under a limit is what is extracted without one. -/
theorem extract_of_limit (h : extract d source limit = .ok e) : extract d source = .ok e :=
  (extract_agrees d source limit).eq_ok h

/-- Where an extraction comes from: what each line of the source text was read
    as, and what became of each note, in the order of closing. -/
structure Account (d : Dialect) (source : Text) (e : Extraction) where
  readings : List Reading
  fates : List Note.Fate
  /-- The notes are those that reading the lines gives. -/
  reads : readLines d false {} (Line.split source) = .ok (readings, ⟨[], fates.map (·.pending)⟩)
  /-- Their markers are on these lines. -/
  written : ∀ fate ∈ fates, fate.pending.IsWritten readings
  /-- A note keeps what is written in it. -/
  keeps : ∀ fate ∈ fates, ∀ note, fate.note = some note → note.text = fate.pending.text ∧
    note.id = fate.pending.id ∧ note.depth = fate.pending.depth ∧ note.column = fate.pending.column
  code : e.code = (Display.ofReadings readings).code
  notes : e.notes = fates.filterMap (·.note)
  orphans : e.orphans = fates.filterMap (·.orphan?)

namespace Account

/-- The blocks among the notes. -/
def blocks (a : Account d source e) : List Note.Pending := Note.blocksOf (a.fates.map (·.pending))

theorem exists_reads (a : Account d source e) :
    ∃ after, Reads d false {} (Line.split source) a.readings after ⟨[], a.fates.map (·.pending)⟩ :=
  readLines_eq_ok_iff.1 a.reads

theorem numbered (a : Account d source e) : Numbered a.readings :=
  a.exists_reads.choose_spec.numbered

/-- The lines of the code are the lines that are displayed. -/
theorem map_piece_split_code (a : Account d source e) :
    (Line.split e.code).map Line.piece = Display.displayed a.readings := by
  obtain ⟨after, hreads⟩ := a.exists_reads
  rw [Line.map_piece_split, a.code, hreads.pieces_code]

theorem isPlaced (a : Account d source e) {fate : Note.Fate} (h : fate ∈ a.fates) :
    fate.pending.IsPlaced (rolesOf a.readings) :=
  (a.written fate h).isPlaced a.numbered

theorem isPlaced_of_mem_blocks (a : Account d source e) :
    ∀ b ∈ a.blocks, b.IsPlaced (rolesOf a.readings) := by
  intro b hb
  obtain ⟨fate, hfate, rfl⟩ := List.mem_map.1 (List.mem_filter.1 hb).1
  exact a.isPlaced hfate

/-- Every note becomes what the lines it is on make of it. -/
def IsSettled (a : Account d source e) : Prop :=
  ∀ fate ∈ a.fates, ∃ found, fate.IsSettled a.readings a.blocks found

end Account

/-- Every extraction has an account. -/
theorem exists_account (h : extract d source limit = .ok e) :
    ∃ a : Account d source e, a.IsSettled := by
  replace h := extract_of_limit h
  obtain ⟨⟨readings, pairing⟩, hreads, hrest⟩ := bind_eq_ok.1 h
  obtain ⟨pending, hfinish, _⟩ := bind_eq_ok.1 hrest
  obtain ⟨after, hreads'⟩ := readLines_eq_ok_iff.1 hreads
  obtain ⟨stack, closed⟩ := pairing
  cases stack with
  | cons => cases hfinish
  | nil =>
    obtain ⟨fates, rfl, hsettled, hextract⟩ := extract_of_reads hreads'
    obtain rfl := Except.ok.inj (h.symm.trans hextract)
    refine ⟨⟨readings, fates, hreads, ?_, ?_, rfl, rfl, rfl⟩, hsettled⟩
    · exact fun fate hfate => hreads'.isWritten.closed _ (List.mem_map_of_mem hfate)
    · intro fate hfate note hnote
      obtain ⟨found, hfound⟩ := hsettled fate hfate
      rw [hfound.note_eq] at hnote
      obtain ⟨span, _, rfl⟩ := Option.map_eq_some_iff.1 hnote
      exact ⟨rfl, rfl, rfl, rfl⟩

end Marginalia.Extraction
