import Mathlib.Data.List.Nodup
import Marginalia.Proofs.Extraction.Account

/-!
# Lines of the displayed code and of the source text

The lines that a reader of the displayed code counts are the kept lines of the
source text, in their order and with their own line ends. A kept line is
displayed as it is or, before a remark, up to the comment and the blanks before
it. So a position among the kept lines and a line number of the displayed code
are the same thing.

* `Display.position?_eq_some_iff_getElem?`: positions are those of the kept lines;
* `displayed_lines_correspond`: line by line, the displayed code is what is kept.
-/

namespace Marginalia

/-- What is displayed of a line, if anything is. -/
def Reading.shown (reading : Reading) : Text := reading.role.shown?.getD []

/-- A line that is displayed as it is or, if it has a remark, as what is before the
    comment with the remark, without the blanks at its end. -/
inductive Reading.ShowsCode (d : Dialect) (inBlock : Bool) (reading : Reading) : Prop
  | whole : reading.role = .plain reading.line.content none → ShowsCode d inBlock reading
  | cut {start : Nat} {after : Bool} {shown text : Text} :
    Scan.findComment d inBlock reading.line.content = some ⟨some start, after⟩ →
      shown = Text.stripEnd (reading.line.content.take start) →
      reading.role = .plain shown (some ⟨text, some shown.length⟩) → ShowsCode d inBlock reading

namespace Display

variable {readings : List Reading}

/-- The lines that are displayed. -/
def keptOf (readings : List Reading) : List Reading := readings.filter (·.role.isKept)

theorem displayed_eq_map (readings : List Reading) :
    displayed readings = (keptOf readings).map fun r => (r.shown, r.line.ending) := by
  induction readings with
  | nil => rfl
  | cons reading readings ih =>
    rw [displayed, List.filterMap_cons, keptOf, List.filter_cons, shownPiece?, Role.isKept]
    cases hs : reading.role.shown? with
    | none => exact ih
    | some shown =>
      simp only [Option.map_some, Option.isSome_some, if_true, List.map_cons, Reading.shown, hs,
        Option.getD_some]
      exact congrArg _ ih

theorem nodup_kept (hn : Numbered readings) : (ofReadings readings).kept.Nodup := by
  refine List.Nodup.map_on (fun r hr r' hr' hnum => ?_) (List.Nodup.filter _ ?_)
  · have h := hn.getElem?_of_mem (List.mem_filter.1 hr).1
    rw [hnum, hn.getElem?_of_mem (List.mem_filter.1 hr').1] at h
    exact (Option.some.inj h).symm
  · refine List.nodup_iff_getElem?_ne_getElem?.2 fun i j hij hj heq => ?_
    rw [List.getElem?_eq_getElem hj] at heq
    have := hn i _ heq
    have := hn j _ (List.getElem?_eq_getElem hj)
    omega

/-- The line that is displayed at a position is the kept line there. -/
theorem position?_eq_some_iff_getElem? (hn : Numbered readings) {line : Int} {position : Nat} :
    (ofReadings readings).position? line = some position ↔
      ∃ reading, (keptOf readings)[position]? = some reading ∧ line = reading.line.number := by
  have hkept : ∀ number : Nat, (ofReadings readings).kept[position]? = some number ↔
      ∃ reading, (keptOf readings)[position]? = some reading ∧ number = reading.line.number := by
    intro number
    rw [ofReadings, List.getElem?_map, Option.map_eq_some_iff]
    exact exists_congr fun _ => and_congr_right fun _ => eq_comm
  constructor
  · intro h
    obtain ⟨number, hnumber, hposition⟩ := Option.bind_eq_some_iff.1 h
    obtain rfl := Int.mem_toNat?.1 hnumber
    obtain ⟨hlt, hget, _⟩ := List.idxOf?_eq_some_iff.1 hposition
    obtain ⟨reading, hreading, rfl⟩ := (hkept number).1 (List.getElem?_eq_some_iff.2 ⟨hlt, hget⟩)
    exact ⟨reading, hreading, rfl⟩
  · rintro ⟨reading, hreading, rfl⟩
    obtain ⟨hlt, hget⟩ := List.getElem?_eq_some_iff.1 ((hkept _).2 ⟨reading, hreading, rfl⟩)
    -- No line before has the same number.
    refine List.idxOf?_eq_some_iff.2 ⟨hlt, hget, fun j hj heq => ?_⟩
    have := (List.Nodup.getElem_inj_iff (nodup_kept hn)).1 (heq.trans hget.symm)
    omega

/-- The line at a position is kept, and has as many kept lines before it. -/
theorem getElem?_keptOf (hn : Numbered readings) {reading : Reading} {position : Nat} :
    (keptOf readings)[position]? = some reading ↔
      readings[reading.line.number]? = some reading ∧ reading.role.isKept ∧
        position = shownBefore readings reading.line.number := by
  constructor
  · intro h
    have hmem := List.mem_filter.1 (List.mem_of_getElem? h)
    have hi := hn.getElem?_of_mem hmem.1
    obtain ⟨i, other, hnumber, hother, _, hposition⟩ := (position?_eq_some_iff hn).1
      ((position?_eq_some_iff_getElem? hn).2 ⟨reading, h, rfl⟩)
    obtain rfl := Int.ofNat.inj hnumber
    exact ⟨hi, hmem.2, hposition⟩
  · rintro ⟨hi, hk, hposition⟩
    obtain ⟨other, hother, hnumber⟩ := (position?_eq_some_iff_getElem? hn).1
      ((position?_eq_some_iff hn).2 ⟨_, reading, rfl, hi, hk, hposition⟩)
    have hi' := hn.getElem?_of_mem (List.mem_filter.1 (List.mem_of_getElem? hother)).1
    rw [← Int.ofNat.inj hnumber, hi] at hi'
    rw [Option.some.inj hi', hother]

end Display

namespace Extraction

variable {d : Dialect} {inBlock after : Bool} {p q : Note.Pairing} {lines : List Line}
  {readings : List Reading} {source : Text} {e : Extraction}

/-- Every line is scanned from where the line before it ended. -/
theorem Reads.exists_isRole_of_getElem? (h : Reads d inBlock p lines readings after q) {i : Nat}
    {reading : Reading} (hi : readings[i]? = some reading) : ∃ inBlock' noteOpen outcome,
      Scan.stateAfter d inBlock (lines.take i) = some inBlock' ∧
      Scan.findComment d inBlock' reading.line.content = some outcome ∧
      Role.IsRole d noteOpen reading.line.content outcome.comment reading.role := by
  induction h generalizing i with
  | nil => cases hi
  | @cons inBlock _ p _ _ line _ outcome role _ hscan hrole _ _ ih =>
    cases i with
    | zero =>
      obtain rfl := Option.some.inj hi
      exact ⟨inBlock, p.isOpen, outcome, rfl, hscan, hrole⟩
    | succ i =>
      obtain ⟨inBlock', noteOpen, outcome', hstate, hrest⟩ := ih hi
      refine ⟨inBlock', noteOpen, outcome', ?_, hrest⟩
      rw [List.take_succ_cons, Scan.stateAfter, hscan]
      exact hstate

/-- A kept line is displayed as it is or up to its remark. -/
theorem Reads.exists_showsCode (h : Reads d inBlock p lines readings after q) {i : Nat}
    {reading : Reading} (hi : readings[i]? = some reading) (hk : reading.role.isKept) :
    ∃ inBlock', Scan.stateAfter d inBlock (lines.take i) = some inBlock' ∧
      reading.ShowsCode d inBlock' := by
  obtain ⟨inBlock', _, ⟨comment, after'⟩, hstate, hscan, hrole⟩ := h.exists_isRole_of_getElem? hi
  refine ⟨inBlock', hstate, ?_⟩
  cases hr : reading.role with
  | plain shown remark =>
    rw [hr] at hrole
    rcases hrole.shown_cases with ⟨rfl, rfl⟩ | ⟨start, text, rfl, _, rfl, rfl⟩
    · exact .whole hr
    · exact .cut hscan rfl hr
  | opening | closing | body | note =>
    rw [hr] at hk
    cases hk

/-- The kept lines of a source text. -/
def Account.kept (a : Account d source e) : List Reading := Display.keptOf a.readings

/-- The lines of the displayed code are the kept lines of the source text. -/
structure Account.LinesCorrespond (a : Account d source e) : Prop where
  /-- Every line of the source text is read once, in their order. -/
  read : a.readings.map (·.line) = Line.split source
  /-- The code has a line for each kept line, at its position among these, with what
      is displayed of it and with its line end. -/
  split : Line.split e.code = a.kept.mapIdx fun position reading =>
    ⟨position, reading.shown, reading.line.ending⟩
  /-- What is displayed of a line is the line or what is before its remark. -/
  shows : ∀ i reading, a.readings[i]? = some reading → reading.role.isKept →
    ∃ inBlock, Scan.stateAfter d false ((Line.split source).take i) = some inBlock ∧
      reading.ShowsCode d inBlock
  /-- The position of a line, by its number, is that of the kept line. -/
  position : ∀ line position, (Display.ofReadings a.readings).position? line = some position ↔
    ∃ reading, a.kept[position]? = some reading ∧ line = reading.line.number

/-- The displayed code has the kept lines of the source text as its lines. -/
theorem displayed_lines_correspond {limit : Option Nat} (h : extract d source limit = .ok e) :
    ∃ a : Account d source e, a.LinesCorrespond := by
  obtain ⟨a, _⟩ := exists_account h
  obtain ⟨after, hreads⟩ := a.exists_reads
  refine ⟨a, hreads.map_line, ?_, fun i reading hi hk => hreads.exists_showsCode hi hk,
    fun line position => Display.position?_eq_some_iff_getElem? a.numbered⟩
  have hpieces : Line.pieces e.code = a.kept.map fun r => (r.shown, r.line.ending) := by
    rw [a.code, hreads.pieces_code, Display.displayed_eq_map]
    rfl
  refine List.ext_getElem? fun i => ?_
  rw [Line.split, hpieces, List.getElem?_mapIdx, List.getElem?_map, List.getElem?_mapIdx,
    Option.map_map]
  rfl

/-- A text with a carriage return before a remark, a blank line between markers, and
    a last line that is a marker without a line end. -/
def returnSource : Text := "a\r // NOTE: n\r\n// @annotate A\n\n// @end\nb \n// NOTE: m".toList

def returnExtraction : Extraction where
  code := "a\r\n\nb \n".toList
  notes := [⟨0, 0, "n".toList, some 1, none, 0⟩, ⟨1, 1, "A".toList, none, none, 0⟩]
  orphans := [⟨5⟩]

theorem displayed_lines_correspond_return :
    extract .standard returnSource = .ok returnExtraction ∧
      ∃ a : Account .standard returnSource returnExtraction, a.LinesCorrespond :=
  have h : extract .standard returnSource = .ok returnExtraction :=
    toOption_eq_some.1 (by decide +kernel)
  ⟨h, displayed_lines_correspond h⟩

end Extraction

end Marginalia
