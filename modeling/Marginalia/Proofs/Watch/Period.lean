import Mathlib.Data.List.Basic

/-!
# Periods

Something that holds at some moments and not at others holds for *periods* (`IsPeriod`):
stretches of moments at which it holds, as long as can be. Before each of them is a moment
at which it does not hold.

* `exists_periods`: the periods up to a moment can be listed in the order of time, and what
  comes up from moment to moment while it holds is what comes up in each period in turn.
-/

namespace Marginalia.Watch

/-- Up to the moment `n` there is a period after the moment `p.1` and until `p.2`. -/
structure IsPeriod (r : Nat → Prop) (n : Nat) (p : Nat × Nat) : Prop where
  lt : p.1 < p.2
  le : p.2 ≤ n
  before : ¬r p.1
  during : ∀ k, p.1 < k → k ≤ p.2 → r k
  after : p.2 = n ∨ ¬r (p.2 + 1)

/-- All periods up to a moment, in the order of time. -/
structure Periods (r : Nat → Prop) (n : Nat) (periods : List (Nat × Nat)) : Prop where
  ascending : periods.Pairwise (·.2 < ·.1)
  mem_iff : ∀ p, p ∈ periods ↔ IsPeriod r n p

variable {r : Nat → Prop} {a n : Nat} {p : Nat × Nat} {periods : List (Nat × Nat)}

namespace IsPeriod

/-- A period that is over stays as it is. -/
theorem succ_of_ne (h : IsPeriod r n p) (hne : p.2 ≠ n) : IsPeriod r (n + 1) p :=
  ⟨h.lt, Nat.le_succ_of_le h.le, h.before, h.during, .inr (h.after.resolve_left hne)⟩

/-- Before the next moment a period that ends earlier was one. -/
theorem of_succ (h : IsPeriod r (n + 1) p) (hne : p.2 ≠ n + 1) : IsPeriod r n p :=
  ⟨h.lt, Nat.le_of_lt_succ (Nat.lt_of_le_of_ne h.le hne), h.before, h.during,
    .inr (h.after.resolve_left hne)⟩

/-- What holds for another moment extends its period. -/
theorem extend (h : IsPeriod r n (a, n)) (hnext : r (n + 1)) : IsPeriod r (n + 1) (a, n + 1) := by
  refine ⟨Nat.lt_succ_of_lt h.lt, Nat.le_refl _, h.before, fun k hak hk => ?_, .inl rfl⟩
  rcases Nat.le_succ_iff.1 hk with hk | rfl
  exacts [h.during k hak hk, hnext]

/-- What comes to hold begins a period. -/
theorem begin (hbefore : ¬r n) (hnext : r (n + 1)) : IsPeriod r (n + 1) (n, n + 1) := by
  refine ⟨Nat.lt_succ_self n, Nat.le_refl _, hbefore, fun k hnk hk => ?_, .inl rfl⟩
  rwa [Nat.le_antisymm hk hnk]

/-- What holds at a moment has held for a period. -/
theorem exists_of_holds (h0 : ¬r 0) (hn : r n) : ∃ a, IsPeriod r n (a, n) := by
  induction n with
  | zero => exact absurd hn h0
  | succ n ih =>
    by_cases hbefore : r n
    · obtain ⟨a, h⟩ := ih hbefore
      exact ⟨a, h.extend hn⟩
    · exact ⟨n, begin hbefore hn⟩

end IsPeriod

namespace Periods

theorem zero : Periods r 0 [] := by
  refine ⟨.nil, fun p => iff_of_false List.not_mem_nil fun h => ?_⟩
  exact absurd (Nat.lt_of_lt_of_le h.lt h.le) (Nat.not_lt_zero _)

/-- At a moment at which it does not hold, no period begins or goes on. -/
theorem idle (h : Periods r n periods) (hnext : ¬r (n + 1)) : Periods r (n + 1) periods := by
  refine ⟨h.ascending, fun p => (h.mem_iff p).trans ⟨fun hp => ?_, fun hp => ?_⟩⟩
  · refine ⟨hp.lt, Nat.le_succ_of_le hp.le, hp.before, hp.during, .inr ?_⟩
    rcases hp.after with hlast | hafter
    exacts [hlast ▸ hnext, hafter]
  · exact hp.of_succ fun hlast => hnext (hlast ▸ hp.during p.2 hp.lt (Nat.le_refl _))

/-- A period that begins comes after all others. -/
theorem begin (h : Periods r n periods) (hbefore : ¬r n) (hnext : r (n + 1)) :
    Periods r (n + 1) (periods ++ [(n, n + 1)]) := by
  have hne : ∀ p, IsPeriod r n p → p.2 ≠ n := fun p hp hlast =>
    hbefore (hlast ▸ hp.during p.2 hp.lt (Nat.le_refl _))
  refine ⟨List.pairwise_append.2 ⟨h.ascending, List.pairwise_singleton _ _, fun p hp q hq => ?_⟩,
    fun p => ?_⟩
  · have hp := (h.mem_iff p).1 hp
    rw [List.mem_singleton.1 hq]
    exact Nat.lt_of_le_of_ne hp.le (hne p hp)
  · rw [List.mem_append, List.mem_singleton, h.mem_iff]
    constructor
    · rintro (hp | rfl)
      exacts [hp.succ_of_ne (hne p hp), .begin hbefore hnext]
    · intro hp
      by_cases hlast : p.2 = n + 1
      · -- It did not hold at `n`, so that the period begins there.
        have hfirst : n ≤ p.1 := Nat.le_of_not_lt fun hlt =>
          hbefore (hp.during n hlt (hlast ▸ Nat.le_succ n))
        have := hp.lt
        exact .inr (Prod.ext (by dsimp only; omega) hlast)
      · exact .inl (hp.of_succ hlast)

/-- The period until the last moment is the last one. -/
theorem eq_concat (h : Periods r n periods) (hlast : IsPeriod r n (a, n)) :
    ∃ earlier, periods = earlier ++ [(a, n)] := by
  obtain ⟨earlier, later, rfl⟩ := List.append_of_mem ((h.mem_iff _).2 hlast)
  cases later with
  | nil => exact ⟨earlier, rfl⟩
  | cons q later =>
    have hq := (h.mem_iff q).1 (by simp)
    have hlt : n < q.1 :=
      List.rel_of_pairwise_cons (List.pairwise_append.1 h.ascending).2.1 List.mem_cons_self
    exact absurd (Nat.lt_of_lt_of_le (Nat.lt_trans hlt hq.lt) hq.le) (Nat.lt_irrefl n)

/-- The last period goes on. -/
theorem extend {earlier : List (Nat × Nat)} (h : Periods r n (earlier ++ [(a, n)]))
    (hnext : r (n + 1)) : Periods r (n + 1) (earlier ++ [(a, n + 1)]) := by
  have hlast : IsPeriod r n (a, n) := (h.mem_iff _).1 (by simp)
  obtain ⟨hearlier, -, hbefore⟩ := List.pairwise_append.1 h.ascending
  have hbefore : ∀ p ∈ earlier, p.2 < a := fun p hp => hbefore p hp _ (List.mem_singleton.2 rfl)
  refine ⟨List.pairwise_append.2 ⟨hearlier, List.pairwise_singleton _ _, fun p hp q hq => ?_⟩,
    fun p => ?_⟩
  · rw [List.mem_singleton.1 hq]
    exact hbefore p hp
  · rw [List.mem_append, List.mem_singleton]
    constructor
    · rintro (hp | rfl)
      · have hne : p.2 ≠ n := Nat.ne_of_lt (Nat.lt_trans (hbefore p hp) hlast.lt)
        exact ((h.mem_iff p).1 (List.mem_append_left _ hp)).succ_of_ne hne
      · exact hlast.extend hnext
    · intro hp
      by_cases hend : p.2 = n + 1
      · -- Both are periods at `n`, and it does not hold where either begins.
        have hlt := hp.lt
        have hlt' := hlast.lt
        dsimp only at hlt'
        have hle : p.1 ≤ a := Nat.le_of_not_lt fun h => hp.before (hlast.during p.1 h (by omega))
        have hge : a ≤ p.1 := Nat.le_of_not_lt fun h => hlast.before (hp.during a h (by omega))
        exact .inr (Prod.ext (Nat.le_antisymm hle hge) hend)
      · rcases List.mem_append.1 ((h.mem_iff p).2 (hp.of_succ hend)) with hp' | hp'
        · exact .inl hp'
        · -- The last period does not end here.
          rw [List.mem_singleton.1 hp'] at hp
          exact absurd hnext (hp.after.resolve_left (Nat.ne_of_lt (Nat.lt_succ_self n)))

end Periods

/-- What comes up from moment to moment, and only between two moments at which something
    holds, is what comes up in its periods in turn. -/
theorem exists_periods {α : Type} {comes : Nat → List α} {total : Nat × Nat → List α}
    (h0 : ¬r 0) (hidle : ∀ n, ¬(r n ∧ r (n + 1)) → comes n = [])
    (hbegin : ∀ n, total (n, n + 1) = [])
    (hextend : ∀ a n, IsPeriod r n (a, n) → r (n + 1) →
      total (a, n + 1) = total (a, n) ++ comes n) (n : Nat) :
    ∃ periods, Periods r n periods ∧ (List.range n).flatMap comes = periods.flatMap total := by
  induction n with
  | zero => exact ⟨[], .zero, rfl⟩
  | succ n ih =>
    obtain ⟨periods, hperiods, hcomes⟩ := ih
    rw [List.range_succ, List.flatMap_append, List.flatMap_singleton, hcomes]
    by_cases hnext : r (n + 1)
    · by_cases hbefore : r n
      · obtain ⟨a, hlast⟩ := IsPeriod.exists_of_holds h0 hbefore
        obtain ⟨earlier, rfl⟩ := hperiods.eq_concat hlast
        refine ⟨_, hperiods.extend hnext, ?_⟩
        rw [List.flatMap_append, List.flatMap_append, List.flatMap_singleton,
          List.flatMap_singleton, hextend a n hlast hnext, List.append_assoc]
      · refine ⟨_, hperiods.begin hbefore hnext, ?_⟩
        rw [List.flatMap_append, List.flatMap_singleton, hbegin, hidle n fun h => hbefore h.1]
    · refine ⟨periods, hperiods.idle hnext, ?_⟩
      rw [hidle n fun h => hnext h.2, List.append_nil]

end Marginalia.Watch
