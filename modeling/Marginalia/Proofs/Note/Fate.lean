import Marginalia.Proofs.Note.Anchor
import Marginalia.Proofs.Note.Display
import Marginalia.Proofs.Note.Pairing

/-!
# What becomes of a note

A note that is written on numbered lines has lines to look for, and those it is
on are displayed. Anchoring it therefore meets no fault, and what becomes of it
is what these lines make of it (`Fate.IsSettled`).

* `exists_anchor`: written notes can all be anchored;
* `Pending.IsFilledBy.on_eq`: the displayed lines of a note around kept lines are
  all those between its markers.
-/

namespace Marginalia

/-- The roles of the lines, as anchoring looks them up. -/
def rolesOf (readings : List Reading) : Array Role := (readings.map (·.role)).toArray

variable {readings : List Reading}

theorem size_rolesOf (readings : List Reading) : (rolesOf readings).size = readings.length := by
  rw [rolesOf, List.size_toArray, List.length_map]

theorem lineIs_rolesOf {test : Role → Bool} {line : Int} :
    Note.LineIs test (rolesOf readings) line ↔
      ∃ (i : Nat) (reading : Reading), line = i ∧ readings[i]? = some reading ∧ test reading.role := by
  simp only [Note.LineIs, rolesOf, List.getElem?_toArray, List.getElem?_map, Option.map_eq_some_iff]
  constructor
  · rintro ⟨i, _, rfl, ⟨reading, hi, rfl⟩, h⟩
    exact ⟨i, reading, rfl, hi, h⟩
  · rintro ⟨i, reading, rfl, hi, h⟩
    exact ⟨i, _, rfl, ⟨reading, hi, rfl⟩, h⟩

theorem lineIs_rolesOf_natCast {test : Role → Bool} {i : Nat} :
    Note.LineIs test (rolesOf readings) i ↔
      ∃ reading, readings[i]? = some reading ∧ test reading.role := by
  rw [lineIs_rolesOf]
  constructor
  · rintro ⟨j, reading, hij, hreading⟩
    obtain rfl := Int.ofNat.inj hij
    exact ⟨reading, hreading⟩
  · rintro ⟨reading, hreading⟩
    exact ⟨i, reading, rfl, hreading⟩

namespace Note

/-- A note that is written on lines has lines that exist. -/
theorem Pending.IsWritten.isPlaced (hn : Numbered readings) {note : Pending}
    (h : note.IsWritten readings) : note.IsPlaced (rolesOf readings) := by
  have hlt : ∀ reading ∈ readings, (reading.line.number : Int) < (rolesOf readings).size := by
    intro reading hr
    have := (List.getElem?_eq_some_iff.1 (hn.getElem?_of_mem hr)).1
    rw [size_rolesOf]
    omega
  cases h with
  | @block opener closer _ _ _ _ _ hopener hcloser _ _ hbefore =>
    exact ⟨by simp, by simpa using Nat.le_of_lt hbefore, hlt closer hcloser, fun h => absurd rfl h,
      fun h => nomatch h⟩
  | @line reading _ _ hr =>
    exact ⟨by simp, Int.le_refl _, hlt reading hr, fun _ => rfl, fun h => nomatch h⟩
  | @inline reading _ _ _ hr hrole =>
    refine ⟨by simp, Int.le_refl _, hlt reading hr, fun _ => rfl, fun _ => ?_⟩
    exact lineIs_rolesOf.2 ⟨_, reading, rfl, hn.getElem?_of_mem hr, by rw [hrole]; rfl⟩

/-- The note that a pending note becomes on some lines of the source text. -/
def Pending.on (readings : List Reading) (note : Pending) (span : Span) : Note where
  first := Display.shownBefore readings span.first.toNat
  last := Display.shownBefore readings span.last.toNat
  text := note.text
  column := note.column
  id := note.id
  depth := note.depth

theorem positionOf_eq (hn : Numbered readings) {line : Int}
    (h : LineIs Role.isKept (rolesOf readings) line) :
    positionOf (Display.ofReadings readings) line =
      .ok (Display.shownBefore readings line.toNat) := by
  obtain ⟨i, reading, rfl, hi, hk⟩ := lineIs_rolesOf.1 h
  rw [positionOf, (Display.position?_eq_some_iff hn).2 ⟨i, reading, rfl, hi, hk, rfl⟩]
  rfl

theorem place_eq (hn : Numbered readings) {span : Span} (h : span.IsShown (rolesOf readings))
    (note : Pending) : place (Display.ofReadings readings) note span = .ok (note.on readings span) := by
  rw [place, positionOf_eq hn h.first, positionOf_eq hn h.last]
  rfl

/-- What becomes of a note follows from the lines it is on. -/
structure Fate.IsSettled (readings : List Reading) (blocks : List Pending) (fate : Fate)
    (found : Option Span) : Prop where
  span_eq : span (rolesOf readings) blocks fate.pending = .ok found
  isOn : IsOn (rolesOf readings) blocks fate.pending found
  note_eq : fate.note = found.map (fate.pending.on readings)

theorem exists_fateOf (hn : Numbered readings) {blocks : List Pending}
    (hblocks : ∀ b ∈ blocks, b.IsWritten readings) {note : Pending} (hnote : note.IsWritten readings) :
    ∃ fate found, fateOf (rolesOf readings) blocks (Display.ofReadings readings) note = .ok fate ∧
      fate.pending = note ∧ fate.IsSettled readings blocks found := by
  have hplaced : ∀ b ∈ blocks, b.IsPlaced (rolesOf readings) := fun b hb => (hblocks b hb).isPlaced hn
  obtain ⟨found, hspan, hon⟩ := exists_span hplaced (hnote.isPlaced hn)
  refine ⟨⟨note, found.map (note.on readings)⟩, found, ?_, rfl, hspan, hon, rfl⟩
  rw [fateOf, hspan]
  cases found with
  | none => rfl
  | some span =>
    have hshown := hon.isShown (hnote.isPlaced hn) hplaced span rfl
    simp only [bind, Except.bind, place_eq hn hshown]
    rfl

/-- The blocks among some notes. -/
def blocksOf (pending : List Pending) : List Pending := pending.filter (·.form == .block)

/-- Notes that are written on lines can all be anchored in their displayed code. -/
theorem exists_anchor (hn : Numbered readings) {pending : List Pending}
    (hp : ∀ note ∈ pending, note.IsWritten readings) :
    ∃ fates, fates.map Fate.pending = pending ∧
      anchor pending readings (Display.ofReadings readings) = .ok (sortFates fates) ∧
      ∀ fate ∈ fates, ∃ found, fate.IsSettled readings (blocksOf pending) found := by
  have hblocks : ∀ b ∈ blocksOf pending, b.IsWritten readings := fun b hb =>
    hp b (List.mem_filter.1 hb).1
  have hall : ∀ note ∈ pending, ∃ fate,
      fateOf (rolesOf readings) (blocksOf pending) (Display.ofReadings readings) note = .ok fate ∧
        fate.pending = note ∧ ∃ found, fate.IsSettled readings (blocksOf pending) found := by
    intro note hnote
    obtain ⟨fate, found, hfate, hpending, hsettled⟩ := exists_fateOf hn hblocks (hp note hnote)
    exact ⟨fate, hfate, hpending, found, hsettled⟩
  obtain ⟨fates, hfates, hmap, hsettled⟩ := exists_mapM_eq_ok hall
  refine ⟨fates, hmap, ?_, hsettled⟩
  rw [anchor_eq]
  exact map_eq_ok.2 ⟨fates, hfates, rfl⟩

/-- The displayed lines of a note around kept lines reach from the first displayed
    line after its opening marker to the last one before its closing marker. -/
theorem Pending.IsFilledBy.on_eq {note : Pending} {span : Span}
    (h : note.IsFilledBy (rolesOf readings) span) {opened closed : Nat} (ho : note.opened = opened)
    (hc : note.closed = closed) :
    (note.on readings span).first = Display.shownBefore readings (opened + 1) ∧
      (note.on readings span).last + 1 = Display.shownBefore readings closed := by
  obtain ⟨hof, hfc, hkf⟩ := h.first
  obtain ⟨hol, hlc, hkl⟩ := h.last
  obtain ⟨first, _, hfirst, hreading, _⟩ := lineIs_rolesOf.1 hkf
  obtain ⟨last, reading, hlast, hlread, hkept⟩ := lineIs_rolesOf.1 hkl
  have hall : ∀ n r, opened < n → n < closed → readings[n]? = some r → r.role.isKept →
      first ≤ n ∧ n ≤ last := by
    intro n r hlo hhi hr hk
    have := h.all n ⟨by omega, by omega, lineIs_rolesOf.2 ⟨n, r, rfl, hr, hk⟩⟩
    omega
  have hsucc := Display.shownBefore_succ readings last
  rw [hlread, Option.any_some, if_pos hkept] at hsucc
  simp only [Pending.on, hfirst, hlast, Int.toNat_natCast]
  rw [← hsucc]
  constructor
  · -- Nothing is displayed between the opening marker and the first line.
    refine (Display.shownBefore_eq_of_forall (by omega) fun n r hlo hhi hr hk => ?_).symm
    have := hall n r (by omega) (by omega) hr hk
    omega
  · -- Nor is anything between the last line and the closing marker.
    refine Display.shownBefore_eq_of_forall (by omega) fun n r hlo hhi hr hk => ?_
    have := hall n r (by omega) hhi hr hk
    omega

end Note

end Marginalia
