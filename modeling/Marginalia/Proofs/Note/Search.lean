import Marginalia.Note.Anchor

/-!
# Looking for lines

What the looks at the lines of a text find, as long as they stay on lines that
exist: they meet no fault, and say which line of the range is the first with code
(`nextContent_spec`), up to where the lines after a line have code
(`paragraphEnd_spec`), and from where to where lines are kept
(`ofLines?_keptLines_spec`).
-/

namespace Marginalia

/-- A line with code is kept. -/
theorem Role.isKept_of_isContent {role : Role} (h : role.isContent) : role.isKept := by
  rw [Role.isContent, Option.any_eq_true] at h
  obtain ⟨shown, hshown, _⟩ := h
  rw [Role.isKept, hshown, Option.isSome_some]

namespace Note

/-- The line of that number exists and passes the test. -/
def LineIs (test : Role → Bool) (roles : Array Role) (line : Int) : Prop :=
  ∃ (i : Nat) (role : Role), line = i ∧ roles[i]? = some role ∧ test role

variable {roles : Array Role} {line before : Int}

theorem LineIs.isKept (h : LineIs Role.isContent roles line) : LineIs Role.isKept roles line := by
  obtain ⟨i, role, rfl, hi, hrole⟩ := h
  exact ⟨i, role, rfl, hi, Role.isKept_of_isContent hrole⟩

/-- A line that exists has a role, which says what the line is. -/
theorem exists_roleAt (h0 : 0 ≤ line) (hlt : line < roles.size) :
    ∃ role, roleAt roles line = .ok role ∧ ∀ test, LineIs test roles line ↔ test role := by
  obtain ⟨i, rfl⟩ := Int.eq_ofNat_of_zero_le h0
  have hi : roles[i]? = some roles[i] := Array.getElem?_eq_getElem (by omega)
  refine ⟨roles[i], ?_, fun test => ⟨?_, fun h => ⟨i, _, rfl, hi, h⟩⟩⟩
  · have hget : (Int.toNat? i).bind (roles[·]?) = some roles[i] := hi
    simp only [roleAt, if_neg (Int.not_lt.2 h0), hget]
  · rintro ⟨j, role, hij, hj, hrole⟩
    obtain rfl := Int.ofNat.inj hij
    rwa [Option.some.inj (hi.symm.trans hj)]

/-- Looking at no line or at a first one, then at the others. -/
theorem linesUpTo_cases (line before : Int) :
    (before ≤ line ∧ linesUpTo line before = 0) ∨
      (line < before ∧ linesUpTo line before = linesUpTo (line + 1) before + 1) := by
  unfold linesUpTo
  omega

/-- The search for code finds the first line that has some. -/
theorem nextContent_spec (h0 : 0 ≤ line) (hb : before ≤ roles.size) :
    (∃ next, nextContent roles line (linesUpTo line before) = .ok (some next) ∧
        line ≤ next ∧ next < before ∧ LineIs Role.isContent roles next ∧
        ∀ k, line ≤ k → k < next → ¬LineIs Role.isContent roles k) ∨
      (nextContent roles line (linesUpTo line before) = .ok none ∧
        ∀ k, line ≤ k → k < before → ¬LineIs Role.isContent roles k) := by
  generalize hn : linesUpTo line before = n
  induction n generalizing line with
  | zero =>
    rcases linesUpTo_cases line before with ⟨hle, _⟩ | ⟨_, h⟩
    · exact .inr ⟨rfl, fun k _ _ => absurd hle (by omega)⟩
    · omega
  | succ n ih =>
    rcases linesUpTo_cases line before with ⟨_, h⟩ | ⟨hlt, h⟩
    · omega
    obtain ⟨role, hrole, his⟩ := exists_roleAt h0 (Int.lt_of_lt_of_le hlt hb)
    have hstep : nextContent roles line (n + 1) =
        if role.isContent then .ok (some line) else nextContent roles (line + 1) n := by
      rw [nextContent, hrole]
      rfl
    rw [hstep]
    -- The line has code, or the search goes on past it.
    split
    · rename_i hcontent
      exact .inl ⟨line, rfl, Int.le_refl _, hlt, (his _).2 hcontent, fun k _ _ => by omega⟩
    · rename_i hcontent
      have hfirst : ¬LineIs Role.isContent roles line := fun hl => hcontent ((his _).1 hl)
      have hall : ∀ {bound}, (∀ k, line + 1 ≤ k → k < bound → ¬LineIs Role.isContent roles k) →
          ∀ k, line ≤ k → k < bound → ¬LineIs Role.isContent roles k := by
        intro bound hrest k hk hkb
        rcases Int.le_iff_lt_or_eq.1 hk with hk | rfl
        · exact hrest k hk hkb
        · exact hfirst
      rcases @ih (line + 1) (by omega) (by omega) with
        ⟨next, hnext, hle, hbefore, hcontent, hrest⟩ | ⟨hnone, hrest⟩
      · exact .inl ⟨next, hnext, by omega, hbefore, hcontent, hall hrest⟩
      · exact .inr ⟨hnone, hall hrest⟩

/-- A paragraph ends before the bound, and all lines up to its end have code. -/
theorem paragraphEnd_spec (h0 : 0 ≤ line) (hlt : line < before) (hb : before ≤ roles.size) :
    ∃ last, paragraphEnd roles line (linesUpTo (line + 1) before) = .ok last ∧
      line ≤ last ∧ last < before ∧
      (∀ k, line < k → k ≤ last → LineIs Role.isContent roles k) ∧
      (last + 1 < before → ¬LineIs Role.isContent roles (last + 1)) := by
  generalize hn : linesUpTo (line + 1) before = n
  induction n generalizing line with
  | zero =>
    rcases linesUpTo_cases (line + 1) before with ⟨hle, _⟩ | ⟨_, h⟩
    · exact ⟨line, rfl, Int.le_refl _, hlt, fun k _ _ => by omega, fun _ => by omega⟩
    · omega
  | succ n ih =>
    rcases linesUpTo_cases (line + 1) before with ⟨_, h⟩ | ⟨hlt', h⟩
    · omega
    obtain ⟨role, hrole, his⟩ := exists_roleAt (by omega) (Int.lt_of_lt_of_le hlt' hb)
    have hstep : paragraphEnd roles line (n + 1) =
        if role.isContent then paragraphEnd roles (line + 1) n else .ok line := by
      rw [paragraphEnd, hrole]
      rfl
    rw [hstep]
    split
    · rename_i hcontent
      obtain ⟨last, hlast, hle, hbefore, hall, hafter⟩ := ih (by omega) hlt' (by omega)
      refine ⟨last, hlast, by omega, hbefore, fun k hk hkl => ?_, hafter⟩
      rcases Int.le_iff_lt_or_eq.1 (Int.add_one_le_of_lt hk) with hk | rfl
      · exact hall k hk hkl
      · exact (his _).2 hcontent
    · rename_i hcontent
      exact ⟨line, rfl, Int.le_refl _, hlt, fun k _ _ => by omega,
        fun _ hl => hcontent ((his _).1 hl)⟩

/-- The kept lines of a range, if there are any, reach from its first kept line
    to its last. -/
theorem ofLines?_keptLines_spec (h0 : 0 ≤ line) (hb : before ≤ roles.size) :
    ∃ lines, keptLines roles line (linesUpTo line before) = .ok lines ∧
      ((lines = [] ∧ ∀ k, line ≤ k → k < before → ¬LineIs Role.isKept roles k) ∨
        ∃ first last, Span.ofLines? lines = some ⟨first, last⟩ ∧
          line ≤ first ∧ first ≤ last ∧ last < before ∧
          LineIs Role.isKept roles first ∧ LineIs Role.isKept roles last ∧
          ∀ k, line ≤ k → k < before → LineIs Role.isKept roles k → first ≤ k ∧ k ≤ last) := by
  generalize hn : linesUpTo line before = n
  induction n generalizing line with
  | zero =>
    rcases linesUpTo_cases line before with ⟨hle, _⟩ | ⟨_, h⟩
    · exact ⟨[], rfl, .inl ⟨rfl, fun k _ _ => absurd hle (by omega)⟩⟩
    · omega
  | succ n ih =>
    rcases linesUpTo_cases line before with ⟨_, h⟩ | ⟨hlt, h⟩
    · omega
    obtain ⟨role, hrole, his⟩ := exists_roleAt h0 (Int.lt_of_lt_of_le hlt hb)
    obtain ⟨more, hmore, hcases⟩ := @ih (line + 1) (by omega) (by omega)
    refine ⟨if role.isKept then line :: more else more, ?_, ?_⟩
    · rw [keptLines, hrole, hmore]
      rfl
    have hlater : ∀ k, line ≤ k → k = line ∨ line + 1 ≤ k := by omega
    -- The line comes first among the kept ones, or is not among them.
    split
    · rename_i hkept
      have hline : LineIs Role.isKept roles line := (his _).2 hkept
      refine .inr ?_
      rcases hcases with ⟨rfl, hnone⟩ | ⟨first, last, hspan, hle, hfl, hlast, _, hkl, hall⟩
      · refine ⟨line, line, rfl, Int.le_refl _, Int.le_refl _, hlt, hline, hline, ?_⟩
        intro k hk hkb hkk
        rcases hlater k hk with rfl | hk
        · exact ⟨Int.le_refl _, Int.le_refl _⟩
        · exact absurd hkk (hnone k hk hkb)
      · cases more with
        | nil => cases hspan
        | cons second more =>
          obtain ⟨rfl, rfl⟩ := Span.mk.inj (Option.some.inj hspan)
          refine ⟨line, _, by rw [Span.ofLines?, List.getLast?_cons, Option.getD_some], Int.le_refl _,
            by omega, hlast, hline, hkl, ?_⟩
          intro k hk hkb hkk
          rcases hlater k hk with rfl | hk
          · exact ⟨Int.le_refl _, by omega⟩
          · have := hall k hk hkb hkk
            omega
    · rename_i hkept
      have hline : ¬LineIs Role.isKept roles line := fun hl => hkept ((his _).1 hl)
      rcases hcases with ⟨rfl, hnone⟩ | ⟨first, last, hspan, hle, hrest⟩
      · refine .inl ⟨rfl, fun k hk hkb => ?_⟩
        rcases hlater k hk with rfl | hk
        · exact hline
        · exact hnone k hk hkb
      · refine .inr ⟨first, last, hspan, by omega, hrest.1, hrest.2.1, hrest.2.2.1, hrest.2.2.2.1, ?_⟩
        intro k hk hkb hkk
        rcases hlater k hk with rfl | hk
        · exact absurd hkk hline
        · exact hrest.2.2.2.2 k hk hkb hkk

end Note

end Marginalia
