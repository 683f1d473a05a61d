import Mathlib.Data.Nat.Init
import Mathlib.Tactic.Conv
import Marginalia.Note.Display
import Marginalia.Proofs.Source.Line

/-!
# Positions in the displayed code

The displayed lines of numbered lines (`displayed`) are the kept ones, in their
order, so that the position of a kept line is the number of kept lines before it
(`shownBefore`).

* `position?_eq_some_iff`: the position of a line;
* `displayed_between`: the displayed lines of some lines in a row are in a row.
-/

namespace Marginalia

theorem filterMap_concat_of_none {α β : Type} {f : α → Option β} {xs : List α} {x : α}
    (h : f x = none) : (xs ++ [x]).filterMap f = xs.filterMap f := by
  rw [List.filterMap_append, List.filterMap_cons_none h, List.filterMap_nil, List.append_nil]

/-- The lines are numbered from 0. -/
def Numbered (readings : List Reading) : Prop :=
  ∀ (i : Nat) (reading : Reading), readings[i]? = some reading → reading.line.number = i

/-- A line is where its number says. -/
theorem Numbered.getElem?_of_mem {readings : List Reading} (h : Numbered readings)
    {reading : Reading} (hr : reading ∈ readings) :
    readings[reading.line.number]? = some reading := by
  obtain ⟨i, hi, rfl⟩ := List.getElem_of_mem hr
  rw [h i _ (List.getElem?_eq_getElem hi), List.getElem?_eq_getElem hi]

namespace Display

/-- What is displayed of a line, and its line end, if it is kept. -/
def shownPiece? (reading : Reading) : Option (Text × Text) :=
  reading.role.shown?.map (·, reading.line.ending)

/-- The displayed lines with their line ends. -/
def displayed (readings : List Reading) : List (Text × Text) := readings.filterMap shownPiece?

/-- The number of displayed lines among the first `n` lines. -/
def shownBefore (readings : List Reading) (n : Nat) : Nat :=
  (readings.take n).countP (·.role.isKept)

theorem isSome_shownPiece? (reading : Reading) :
    (shownPiece? reading).isSome = reading.role.isKept := by
  rw [shownPiece?, Option.isSome_map, Role.isKept]

/-- The displayed code is the text of the displayed lines. -/
theorem code_ofReadings (readings : List Reading) :
    (ofReadings readings).code = Line.joinPieces (displayed readings) := by
  have hpiece : ∀ reading, piece? reading = (shownPiece? reading).map fun p => p.1 ++ p.2 := by
    intro reading
    rw [piece?, shownPiece?, Option.map_map]
    rfl
  rw [displayed, Line.joinPieces, List.flatMap_def, List.map_filterMap]
  simp only [ofReadings, ← hpiece]

/-! ## Counting displayed lines -/

variable {readings : List Reading} {i j : Nat}

theorem length_displayed (readings : List Reading) :
    (displayed readings).length = readings.countP (·.role.isKept) := by
  rw [displayed, List.length_filterMap_eq_countP]
  simp only [isSome_shownPiece?]

theorem shownBefore_eq_length (readings : List Reading) (n : Nat) :
    shownBefore readings n = (displayed (readings.take n)).length :=
  (length_displayed _).symm

/-- Later lines do not count. -/
theorem shownBefore_append (more : List Reading) (h : i ≤ readings.length) :
    shownBefore (readings ++ more) i = shownBefore readings i := by
  rw [shownBefore, List.take_append_of_le_length h, shownBefore]

theorem shownBefore_length (readings : List Reading) :
    shownBefore readings readings.length = (displayed readings).length := by
  rw [shownBefore_eq_length, List.take_length]

theorem displayed_append (readings more : List Reading) :
    displayed (readings ++ more) = displayed readings ++ displayed more := List.filterMap_append

/-- A line that is not kept adds nothing. -/
theorem displayed_concat_of_none (readings : List Reading) {reading : Reading}
    (h : reading.role.shown? = none) : displayed (readings ++ [reading]) = displayed readings :=
  filterMap_concat_of_none (by rw [shownPiece?, h, Option.map_none])

theorem shownBefore_mono (readings : List Reading) (h : i ≤ j) :
    shownBefore readings i ≤ shownBefore readings j :=
  (List.take_sublist_take_left h).countP_le

theorem shownBefore_le_length (readings : List Reading) (n : Nat) :
    shownBefore readings n ≤ (displayed readings).length := by
  rw [length_displayed]
  exact (List.take_sublist n readings).countP_le

theorem shownBefore_succ (readings : List Reading) (n : Nat) :
    shownBefore readings (n + 1) =
      shownBefore readings n + if readings[n]?.any (·.role.isKept) then 1 else 0 := by
  rw [shownBefore, List.take_add_one, List.countP_append, shownBefore]
  cases readings[n]? <;> simp

/-- A kept line counts for the lines after it. -/
theorem shownBefore_lt {reading : Reading} (h : readings[i]? = some reading)
    (hk : reading.role.isKept) (hij : i < j) : shownBefore readings i < shownBefore readings j := by
  have hs := shownBefore_succ readings i
  rw [h, Option.any_some, if_pos hk] at hs
  have := shownBefore_mono readings (Nat.add_one_le_of_lt hij)
  omega

/-- Lines of which none is kept do not count. -/
theorem shownBefore_eq_of_forall (hij : i ≤ j)
    (h : ∀ n reading, i ≤ n → n < j → readings[n]? = some reading → ¬reading.role.isKept) :
    shownBefore readings i = shownBefore readings j := by
  induction j, hij using Nat.le_induction with
  | base => rfl
  | succ j hij ih =>
    rw [shownBefore_succ, ← ih fun n reading hi hj => h n reading hi (by omega), if_neg, Nat.add_zero]
    cases hj : readings[j]? with
    | none => simp
    | some reading => exact h j reading hij (by omega) hj

/-- Kept lines in a row are displayed in a row. -/
theorem shownBefore_add {first : Nat} (n : Nat)
    (h : ∀ k < n, ∃ reading, readings[first + k]? = some reading ∧ reading.role.isKept) :
    shownBefore readings (first + n) = shownBefore readings first + n := by
  induction n with
  | zero => rfl
  | succ n ih =>
    obtain ⟨reading, hreading, hk⟩ := h n (Nat.lt_succ_self n)
    have hsucc := shownBefore_succ readings (first + n)
    rw [hreading, Option.any_some, if_pos hk, ih fun k hk => h k (by omega)] at hsucc
    exact hsucc

/-- The displayed lines of some lines in a row are in a row. -/
theorem displayed_between (readings : List Reading) (hij : i ≤ j) :
    ((displayed readings).drop (shownBefore readings i)).take
        (shownBefore readings j - shownBefore readings i) =
      displayed ((readings.take j).drop i) := by
  have htake : (readings.take j).take i = readings.take i := by
    rw [List.take_take, Nat.min_eq_left hij]
  have hj : displayed (readings.take j) =
      displayed (readings.take i) ++ displayed ((readings.take j).drop i) := by
    conv_lhs => rw [← List.take_append_drop i (readings.take j), htake]
    exact List.filterMap_append
  have hall : displayed readings = displayed (readings.take j) ++ displayed (readings.drop j) := by
    conv_lhs => rw [← List.take_append_drop j readings]
    exact List.filterMap_append
  rw [hall, hj, shownBefore_eq_length, shownBefore_eq_length, List.append_assoc, List.drop_left, hj,
    List.length_append, Nat.add_sub_cancel_left, List.take_left]

/-- The numbers of the kept lines before and from a kept line on. -/
theorem kept_eq_append (hn : Numbered readings) {reading : Reading} (h : readings[i]? = some reading)
    (hk : reading.role.isKept) : ∃ before after, (ofReadings readings).kept = before ++ i :: after ∧
      i ∉ before ∧ before.length = shownBefore readings i := by
  have hi := (List.getElem?_eq_some_iff.1 h).1
  refine ⟨((readings.take i).filter (·.role.isKept)).map (·.line.number),
    ((readings.drop (i + 1)).filter (·.role.isKept)).map (·.line.number), ?_, ?_, ?_⟩
  · have hnum := hn i reading h
    obtain ⟨_, rfl⟩ := List.getElem?_eq_some_iff.1 h
    conv_lhs => rw [ofReadings, ← List.take_append_drop i readings, List.drop_eq_getElem_cons hi]
    simp only [List.filter_append, List.filter_cons, if_pos hk, List.map_append, List.map_cons, hnum]
  · intro hmem
    obtain ⟨earlier, hearlier, hnum⟩ := List.mem_map.1 hmem
    obtain ⟨n, hlt, rfl⟩ := List.getElem_of_mem (List.mem_filter.1 hearlier).1
    have hlt' : n < i := by rw [List.length_take] at hlt; omega
    rw [List.getElem_take, hn n _ (List.getElem?_eq_getElem (by omega))] at hnum
    omega
  · rw [List.length_map, ← List.countP_eq_length_filter, shownBefore]

/-- The position of a kept line is the number of kept lines before it, and no
    other line has one. -/
theorem position?_eq_some_iff (hn : Numbered readings) {line : Int} {position : Nat} :
    (ofReadings readings).position? line = some position ↔
      ∃ (i : Nat) (reading : Reading), line = i ∧ readings[i]? = some reading ∧
        reading.role.isKept ∧ position = shownBefore readings i := by
  have hposition : ∀ (i : Nat) (reading : Reading), readings[i]? = some reading →
      reading.role.isKept → (ofReadings readings).position? i = some (shownBefore readings i) := by
    intro i reading hi hk
    obtain ⟨before, after, hkept, hbefore, hlen⟩ := kept_eq_append hn hi hk
    have hidx : (before ++ i :: after).idxOf? i = some before.length := by
      refine List.idxOf?_eq_some_iff.2 ⟨by simp, by simp, fun n hlt => ?_⟩
      rw [List.getElem_append_left hlt]
      exact fun heq => hbefore (heq ▸ List.getElem_mem hlt)
    rw [← hlen, ← hidx, ← hkept]
    rfl
  constructor
  · intro h
    obtain ⟨i, hi, hpos⟩ := Option.bind_eq_some_iff.1 h
    obtain rfl := Int.mem_toNat?.1 hi
    obtain ⟨hlt, hget, _⟩ := List.idxOf?_eq_some_iff.1 hpos
    obtain ⟨reading, hmem, rfl⟩ := List.mem_map.1 (hget ▸ List.getElem_mem hlt)
    obtain ⟨hmem, hk⟩ := List.mem_filter.1 hmem
    have hi := hn.getElem?_of_mem hmem
    exact ⟨_, reading, rfl, hi, hk, Option.some.inj (h.symm.trans (hposition _ _ hi hk))⟩
  · rintro ⟨i, reading, rfl, hi, hk, rfl⟩
    exact hposition i reading hi hk

end Display

end Marginalia
