import Marginalia.Proofs.Page.Outline
import Marginalia.Proofs.Text.Basic
import Marginalia.Proofs.Text.Pattern

/-!
# Headings as a pattern

A heading is a line that matches a pattern with two groups, its number signs and its text
(`linePattern`). The pattern matches many lines in more than one way. The first way it is
matched in is the one of `ofLine?`, which needs no search (`ofLineByPattern?_eq`): after the
number signs, the text goes on until only number signs that close the heading, with blanks
around them, are left (`IsTail`), and no point before is like that (`exists_isTail`).
-/

namespace Marginalia.Heading

open Text

variable {s t text after line : Text} {heading : Heading}

/-! ## The end of a heading -/

/-- The text is what comes before number signs that close a heading and the blanks before them. -/
def IsClosedAfter (s text : Text) : Prop := ∃ blanks signs, s = text ++ (blanks ++ signs) ∧
  (blanks ≠ [] ∧ ∀ c ∈ blanks, isSpaceOrTab c = true) ∧ (signs ≠ [] ∧ ∀ c ∈ signs, c = '#') ∧
  ∀ c, text.getLast? = some c → ¬isSpaceOrTab c = true

/-- What may be left of a heading after its text: blanks, or number signs with blanks before
    them and perhaps after them. -/
inductive IsTail : Text → Prop
  | blanks {blanks : Text} (h : ∀ c ∈ blanks, isSpaceOrTab c = true) : IsTail blanks
  | signs {blanks signs after : Text}
      (hblanks : blanks ≠ [] ∧ ∀ c ∈ blanks, isSpaceOrTab c = true)
      (hsigns : signs ≠ [] ∧ ∀ c ∈ signs, c = '#')
      (hafter : ∀ c ∈ after, isSpaceOrTab c = true) : IsTail (blanks ++ (signs ++ after))

theorem not_isSpaceOrTab_sign : ¬isSpaceOrTab '#' = true := by decide

/-- A text ends as one at its end does. -/
theorem exists_getLast?_append {P : Char → Prop} (h : t ≠ [] ∧ ∀ c ∈ t, P c) (s : Text) :
    ∃ c, (s ++ t).getLast? = some c ∧ P c := by
  obtain ⟨start, c, rfl⟩ := (List.eq_nil_or_concat' t).resolve_left h.1
  exact ⟨c, by rw [← List.append_assoc, List.getLast?_concat], h.2 c (by simp)⟩

/-- The number signs that close a heading are dropped with the blanks before them. -/
theorem IsClosedAfter.dropClosing_eq (h : IsClosedAfter s text) : dropClosing s = text := by
  obtain ⟨blanks, signs, rfl, hblanks, hsigns, hlast⟩ := h
  obtain ⟨b, hb, hblank⟩ := exists_getLast?_append hblanks text
  have hbefore : dropEndWhile (· == '#') (text ++ (blanks ++ signs)) = text ++ blanks := by
    rw [← List.append_assoc, dropEndWhile_append_of_pos fun c hc => beq_iff_eq.2 (hsigns.2 c hc)]
    refine dropEndWhile_eq_self fun c hc hsign => not_isSpaceOrTab_sign ?_
    rw [hb] at hc
    rwa [← eq_of_beq hsign, ← Option.some.inj hc]
  have hshorter : (text ++ blanks).length < (text ++ (blanks ++ signs)).length := by
    have hpos := List.length_pos_iff.2 hsigns.1
    simp only [List.length_append]
    omega
  rw [dropClosing, hbefore, hb, Option.any_some, hblank, decide_eq_true hshorter, Bool.and_self,
    if_pos rfl, dropEndWhile_append_of_pos hblanks.2, dropEndWhile_eq_self hlast]

/-- All of a text is kept, unless number signs close it. -/
theorem isClosedAfter_or (s : Text) : IsClosedAfter s (dropClosing s) ∨ dropClosing s = s := by
  rw [dropClosing]
  split
  next h =>
    obtain ⟨hlast, hshorter⟩ := Bool.and_eq_true_iff.1 h
    have hsigns := dropEndWhile_append_rtakeWhile (· == '#') s
    have hblanks := dropEndWhile_append_rtakeWhile isSpaceOrTab (dropEndWhile (· == '#') s)
    refine .inl ⟨(dropEndWhile (· == '#') s).rtakeWhile isSpaceOrTab, s.rtakeWhile (· == '#'), ?_,
      ⟨fun hnil => ?_, fun c hc => List.mem_rtakeWhile_imp hc⟩, ⟨fun hnil => ?_, fun c hc => ?_⟩,
      fun c hc => not_of_getLast?_dropEndWhile hc⟩
    · rw [← List.append_assoc]
      exact hsigns.symm.trans (congrArg (· ++ _) hblanks.symm)
    · obtain ⟨c, hc, hblank⟩ := (Option.any_eq_true _ _).1 hlast
      have hne : dropEndWhile (· == '#') s ≠ [] := by rintro he; simp [he] at hc
      rw [List.getLast?_eq_some_getLast hne] at hc
      exact List.rtakeWhile_eq_nil_iff.1 hnil hne (Option.some.inj hc ▸ hblank)
    · rw [hnil, List.append_nil] at hsigns
      rw [hsigns] at hshorter
      exact absurd (of_decide_eq_true hshorter) (lt_irrefl _)
    · exact eq_of_beq (List.mem_rtakeWhile_imp (p := (· == '#')) hc)
  next => exact .inr rfl

/-- What is kept of a text without blanks at its end has none there either. -/
theorem not_of_getLast?_dropClosing (h : ∀ c, s.getLast? = some c → ¬isSpaceOrTab c = true) :
    ∀ c, (dropClosing s).getLast? = some c → ¬isSpaceOrTab c = true := by
  rcases isClosedAfter_or s with hclosed | hkept
  · obtain ⟨-, -, -, -, -, hlast⟩ := hclosed
    exact hlast
  · rwa [hkept]

/-- A text with number signs and blanks at its end, and blanks before them, is closed. -/
theorem isClosedAfter_of_append {blanks signs : Text}
    (hblanks : blanks ≠ [] ∧ ∀ c ∈ blanks, isSpaceOrTab c = true)
    (hsigns : signs ≠ [] ∧ ∀ c ∈ signs, c = '#') (hafter : ∀ c ∈ after, isSpaceOrTab c = true)
    (s : Text) : IsClosedAfter (dropEndWhile isSpaceOrTab (s ++ (blanks ++ (signs ++ after))))
      (dropEndWhile isSpaceOrTab s) := by
  have hend : dropEndWhile isSpaceOrTab (s ++ (blanks ++ (signs ++ after))) =
      s ++ (blanks ++ signs) := by
    obtain ⟨c, hc, rfl⟩ := exists_getLast?_append hsigns (s ++ blanks)
    rw [← List.append_assoc, ← List.append_assoc, dropEndWhile_append_of_pos hafter,
      dropEndWhile_eq_self, List.append_assoc]
    intro d hd
    rw [hc] at hd
    exact Option.some.inj hd ▸ not_isSpaceOrTab_sign
  rw [hend]
  refine ⟨s.rtakeWhile isSpaceOrTab ++ blanks, signs, ?_, ⟨?_, fun c hc => ?_⟩, hsigns,
    fun c hc => not_of_getLast?_dropEndWhile hc⟩
  · rw [← List.append_assoc, ← List.append_assoc, ← List.append_assoc]
    rw [dropEndWhile_append_rtakeWhile]
  · exact List.append_ne_nil_of_right_ne_nil _ hblanks.1
  · rcases List.mem_append.1 hc with hc | hc
    · exact List.mem_rtakeWhile_imp hc
    · exact hblanks.2 c hc

/-- The text of a heading goes on until its tail starts. -/
theorem not_isTail {before rest tail : Text} {c : Char}
    (htext : dropClosing (dropEndWhile isSpaceOrTab s) = before ++ c :: rest)
    (hs : s = before ++ c :: rest ++ tail) : ¬IsTail (c :: (rest ++ tail)) := by
  intro htail
  rw [List.append_assoc, List.cons_append] at hs
  generalize hstart : c :: (rest ++ tail) = start at hs htail
  cases htail with
  | blanks h =>
    -- The text does not end with a blank.
    have hlast := not_of_getLast?_dropClosing (s := dropEndWhile isSpaceOrTab s)
      fun c hc => not_of_getLast?_dropEndWhile hc
    obtain ⟨d, hd, hblank⟩ := exists_getLast?_append (t := c :: rest)
      ⟨List.cons_ne_nil _ _, fun d hd => h d (hstart ▸ List.mem_append_left tail hd)⟩ before
    exact hlast d (htext ▸ hd) hblank
  | signs hblanks hsigns hafter =>
    -- The number signs would close a shorter text.
    have hclosed := (isClosedAfter_of_append hblanks hsigns hafter before).dropClosing_eq
    rw [← hs, htext] at hclosed
    have hshorter := (dropEndWhile_isPrefix isSpaceOrTab before).length_le
    rw [← hclosed, List.length_append, List.length_cons] at hshorter
    omega

/-- After the text of a heading, its tail is left. -/
theorem exists_isTail (s : Text) :
    ∃ tail, s = dropClosing (dropEndWhile isSpaceOrTab s) ++ tail ∧ IsTail tail := by
  have hend := dropEndWhile_append_rtakeWhile isSpaceOrTab s
  have hblank : ∀ c ∈ s.rtakeWhile isSpaceOrTab, isSpaceOrTab c = true :=
    fun c hc => List.mem_rtakeWhile_imp hc
  rcases isClosedAfter_or (dropEndWhile isSpaceOrTab s) with hclosed | hkept
  · obtain ⟨blanks, signs, hs, hblanks, hsigns, -⟩ := hclosed
    refine ⟨blanks ++ (signs ++ s.rtakeWhile isSpaceOrTab), ?_, .signs hblanks hsigns hblank⟩
    rw [← List.append_assoc blanks, ← List.append_assoc, ← hs, hend]
  · exact ⟨s.rtakeWhile isSpaceOrTab, by rw [hkept, hend], .blanks hblank⟩

/-! ## The pattern of a heading -/

/-- Blanks, up to the end of the line. -/
def endPattern : Pattern := .seq (.run isSpaceOrTab true 0 none) .atEnd

/-- Blanks and the number signs that close a heading. -/
def closingPattern : Pattern :=
  .seq (.run isSpaceOrTab true 1 none) (.run (· == '#') true 1 none)

/-- The number signs that close a heading, if there are any, and the end of the line. -/
def tailPattern : Pattern := .seq (.maybe closingPattern) endPattern

/-- The text of a heading, which is the second group, with blanks before it. -/
def textPattern : Pattern :=
  .maybe (.seq (.run isSpaceOrTab true 1 none) (.group 2 (.run (· != '\n') false 0 none)))

/-- A heading: up to three spaces, one to six number signs, which are the first group, and perhaps
    a text and number signs that close it. -/
def linePattern : Pattern :=
  .seq (.run (· == ' ') true 0 (some 3))
    (.seq (.group 1 (.run (· == '#') true 1 (some 6))) (.seq textPattern tailPattern))

/-- The heading that groups of the pattern show. -/
def ofGroups? (groups : List (Nat × Text)) : Option Heading := do
  let signs ← groups.lookup 1
  let text := strip ((groups.lookup 2).getD [])
  if text = [] then none else some ⟨text, signs.length⟩

/-- The heading that a line is by the pattern. -/
def ofLineByPattern? (line : Text) : Option Heading := (linePattern.match? line).bind ofGroups?

/-! ## What the pattern finds

Parts of the pattern are read from the last to the first, each with a continuation `k` for what
follows it: what a part finds depends on what the ones after it accept. -/

variable {α : Type} {k : Pattern.Progress → Option α} {groups : List (Nat × Text)} {rest : Text}

theorem not_mem_dropWhile (p : Char → Bool) (h : '\n' ∉ rest) : '\n' ∉ rest.dropWhile p :=
  mt ((List.dropWhile_suffix p).subset ·) h

theorem first_endPattern (h : '\n' ∉ rest) (k : Pattern.Progress → Option α) :
    endPattern.first k ⟨groups, rest⟩ =
      if rest.all isSpaceOrTab = true then k ⟨groups, []⟩ else none := by
  have hend : ¬rest.dropWhile isSpaceOrTab = ['\n'] := fun hend =>
    not_mem_dropWhile isSpaceOrTab h (hend ▸ List.mem_singleton_self _)
  rw [endPattern, Pattern.first_seq, Pattern.first_run, findSome?_repeats_greedy]
  · simp only [Nat.zero_le, Option.all_none, and_self, if_true, Pattern.first_atEnd, hend, or_false]
    by_cases hblank : rest.all isSpaceOrTab = true
    · rw [if_pos hblank, List.dropWhile_eq_nil_iff.2 (List.all_eq_true.1 hblank), if_pos rfl]
    · rw [if_neg hblank, if_neg fun hnil =>
        hblank (List.all_eq_true.2 (List.dropWhile_eq_nil_iff.1 hnil))]
  · intro c t ht hc
    rw [Pattern.first_atEnd, if_neg]
    rintro (hnil | (hnewline : c :: t = ['\n']))
    · cases hnil
    · exact h (ht.subset (hnewline ▸ List.mem_singleton_self _))

theorem first_signs (h : '\n' ∉ rest) (k : Pattern.Progress → Option α) :
    (Pattern.run (· == '#') true 1 none).first (endPattern.first k) ⟨groups, rest⟩ =
      if 1 ≤ (rest.takeWhile (· == '#')).length ∧
          (rest.dropWhile (· == '#')).all isSpaceOrTab = true then k ⟨groups, []⟩
      else none := by
  rw [Pattern.first_run, findSome?_repeats_greedy]
  · simp only [Option.all_none, and_true, first_endPattern (not_mem_dropWhile _ h), ite_and]
  · intro c t ht hc
    rw [first_endPattern (mt (ht.subset ·) h), if_neg]
    exact fun hblank => not_isSpaceOrTab_sign
      (eq_of_beq hc ▸ List.all_eq_true.1 hblank c List.mem_cons_self)

theorem takeWhile_sign_eq_nil {c : Char} (hc : isSpaceOrTab c = true) (s : Text) :
    (c :: s).takeWhile (· == '#') = [] :=
  List.takeWhile_cons_of_neg fun hsign => not_isSpaceOrTab_sign (eq_of_beq hsign ▸ hc)

/-- Number signs that close a heading, as the pattern finds them. -/
theorem first_closingPattern (h : '\n' ∉ rest) (k : Pattern.Progress → Option α) :
    closingPattern.first (endPattern.first k) ⟨groups, rest⟩ =
      if 1 ≤ (rest.takeWhile isSpaceOrTab).length ∧
          1 ≤ ((rest.dropWhile isSpaceOrTab).takeWhile (· == '#')).length ∧
          ((rest.dropWhile isSpaceOrTab).dropWhile (· == '#')).all isSpaceOrTab = true then
        k ⟨groups, []⟩
      else none := by
  rw [closingPattern, Pattern.first_seq, Pattern.first_run, findSome?_repeats_greedy]
  · simp only [Option.all_none, and_true, first_signs (not_mem_dropWhile _ h), ite_and]
  · intro c t ht hc
    rw [first_signs (mt (ht.subset ·) h), takeWhile_sign_eq_nil hc, if_neg]
    exact fun hsigns => Nat.not_succ_le_zero 0 hsigns.1

theorem isTail_iff : IsTail s ↔
    (1 ≤ (s.takeWhile isSpaceOrTab).length ∧
      1 ≤ ((s.dropWhile isSpaceOrTab).takeWhile (· == '#')).length ∧
      ((s.dropWhile isSpaceOrTab).dropWhile (· == '#')).all isSpaceOrTab = true) ∨
    s.all isSpaceOrTab = true := by
  constructor
  · intro h
    cases h with
    | blanks h => exact .inr (List.all_eq_true.2 h)
    | @signs blanks signs after hblanks hsigns hafter =>
      obtain ⟨sign, signs, rfl⟩ := List.exists_cons_of_ne_nil hsigns.1
      obtain rfl := hsigns.2 sign List.mem_cons_self
      have hdrop : (blanks ++ ('#' :: signs ++ after)).dropWhile isSpaceOrTab =
          '#' :: signs ++ after := by
        rw [List.dropWhile_append_of_pos hblanks.2]
        exact List.dropWhile_cons_of_neg not_isSpaceOrTab_sign
      rw [hdrop, List.takeWhile_append_of_pos hblanks.2,
        List.takeWhile_append_of_pos fun c hc => beq_iff_eq.2 (hsigns.2 c hc),
        List.dropWhile_append_of_pos fun c hc => beq_iff_eq.2 (hsigns.2 c hc)]
      have hpos := List.length_pos_iff.2 hblanks.1
      refine .inl ⟨?_, ?_, List.all_eq_true.2 fun c hc =>
        hafter c ((List.dropWhile_suffix _).subset hc)⟩
      · rw [List.length_append]
        omega
      · rw [List.cons_append, List.length_cons]
        omega
  · rintro (⟨hblanks, hsigns, hafter⟩ | h)
    · rw [← List.takeWhile_append_dropWhile (p := isSpaceOrTab) (l := s),
        ← List.takeWhile_append_dropWhile (p := (· == '#')) (l := s.dropWhile isSpaceOrTab)]
      exact .signs ⟨List.length_pos_iff.1 hblanks, fun c hc => List.mem_takeWhile_imp hc⟩
        ⟨List.length_pos_iff.1 hsigns, fun c hc => eq_of_beq (List.mem_takeWhile_imp (p := (· == '#')) hc)⟩
        (List.all_eq_true.1 hafter)
    · exact .blanks (List.all_eq_true.1 h)

theorem ite_or_ite (p q : Prop) [Decidable p] [Decidable q] (x : Option α) :
    (if p then x else none).or (if q then x else none) = if p ∨ q then x else none := by
  by_cases hp : p
  · rw [if_pos hp, if_pos (Or.inl hp)]
    split
    · exact Option.or_self
    · exact Option.or_none
  · rw [if_neg hp, Option.none_or]
    exact if_congr (or_iff_right hp).symm rfl rfl

open Classical in
/-- What comes after the text of a heading is its tail. -/
theorem first_tailPattern (h : '\n' ∉ rest) (k : Pattern.Progress → Option α) :
    tailPattern.first k ⟨groups, rest⟩ = if IsTail rest then k ⟨groups, []⟩ else none := by
  rw [tailPattern, Pattern.first_seq, Pattern.first_maybe, first_closingPattern h, first_endPattern h,
    ite_or_ite]
  exact if_congr isTail_iff.symm rfl rfl

/-- The text starts no heading's text: neither is it empty, nor does a blank come first. -/
theorem first_textPattern_of_not {c : Char} (hc : ¬isSpaceOrTab c = true) (h : '\n' ∉ c :: rest)
    (k : Pattern.Progress → Option α) :
    textPattern.first (tailPattern.first k) ⟨groups, c :: rest⟩ = none := by
  have hrun : repeats isSpaceOrTab true 1 none (c :: rest) = [] := by
    rw [repeats, if_pos rfl, if_neg fun h => hc h.1, if_neg Nat.one_ne_zero, List.append_nil]
  have htail : ¬IsTail (c :: rest) := by
    intro htail
    rcases isTail_iff.1 htail with ⟨hblanks, -⟩ | hblank
    · rw [List.takeWhile_cons_of_neg hc] at hblanks
      exact Nat.not_succ_le_zero 0 hblanks
    · exact hc (List.all_eq_true.1 hblank c List.mem_cons_self)
  rw [textPattern, Pattern.first_maybe, Pattern.first_seq, Pattern.first_run, hrun,
    List.findSome?_nil, Option.none_or, first_tailPattern h, if_neg htail]

theorem take_length_sub (s t : Text) : (s ++ t).take ((s ++ t).length - t.length) = s := by
  rw [List.length_append, Nat.add_sub_cancel, List.take_left]

/-- After blanks, the text of a heading is what is kept between the blanks at its ends. -/
theorem first_textPattern (hblank : ∃ c, after.head? = some c ∧ isSpaceOrTab c = true)
    (h : '\n' ∉ after) {x : α}
    (hk : k ⟨(2, dropClosing (stripOf isSpaceOrTab after)) :: groups, []⟩ = some x) :
    textPattern.first (tailPattern.first k) ⟨groups, after⟩ = some x := by
  obtain ⟨tail, hafter, htail⟩ := exists_isTail (after.dropWhile isSpaceOrTab)
  change _ = dropClosing (stripOf isSpaceOrTab after) ++ tail at hafter
  have hnewline := not_mem_dropWhile isSpaceOrTab h
  have hsome : 1 ≤ (after.takeWhile isSpaceOrTab).length := by
    obtain ⟨c, hc, hblank⟩ := hblank
    obtain ⟨rest, rfl⟩ := List.head?_eq_some_iff.1 hc
    rw [List.takeWhile_cons_of_pos hblank]
    exact Nat.le_add_left 1 _
  -- All the blanks are taken, since the text and the tail are then found.
  rw [textPattern, Pattern.first_maybe, Pattern.first_seq, Pattern.first_run,
    findSome?_repeats_all hsome (x := x), Option.some_or]
  rw [Pattern.first_group, Pattern.first_run, hafter]
  rw [hafter] at hnewline
  refine findSome?_repeats_lazy ?_ ?_ ?_
  · intro c hc
    exact bne_iff_ne.2 fun hc' => hnewline (hc' ▸ List.mem_append_left tail hc)
  · rw [first_tailPattern (mt (List.mem_append_right _) hnewline), if_pos htail]
    simpa only [take_length_sub] using hk
  · intro before c rest htext
    have hsplit : c :: (rest ++ tail) <:+ dropClosing (stripOf isSpaceOrTab after) ++ tail := by
      rw [htext, List.append_assoc, List.cons_append]
      exact List.suffix_append ..
    rw [first_tailPattern (mt (hsplit.subset ·) hnewline), if_neg]
    exact not_isTail htext (hafter.trans (by rw [htext]))

/-- The first group is all of the number signs, since no text starts with one. -/
theorem first_signsGroup (h : '\n' ∉ rest) (k : Pattern.Progress → Option α) :
    (Pattern.group 1 (.run (· == '#') true 1 (some 6))).first
      ((Pattern.seq textPattern tailPattern).first k) ⟨groups, rest⟩ =
      if 1 ≤ (rest.takeWhile (· == '#')).length ∧ (rest.takeWhile (· == '#')).length ≤ 6 then
        textPattern.first (tailPattern.first k)
          ⟨(1, rest.takeWhile (· == '#')) :: groups, rest.dropWhile (· == '#')⟩
      else none := by
  have hsigns := take_length_sub (rest.takeWhile (· == '#')) (rest.dropWhile (· == '#'))
  rw [List.takeWhile_append_dropWhile] at hsigns
  rw [Pattern.first_group, Pattern.first_run, findSome?_repeats_greedy]
  · simp only [Option.all_some, decide_eq_true_eq, Pattern.first_seq, hsigns]
  · intro c t ht hc
    rw [Pattern.first_seq]
    exact first_textPattern_of_not (eq_of_beq hc ▸ not_isSpaceOrTab_sign) (mt (ht.subset ·) h) _

/-- The pattern matches after the indentation of a line, all of which is passed over. -/
theorem match?_linePattern (h : '\n' ∉ line) : linePattern.match? line =
    (unindent? line).bind fun rest =>
      if 1 ≤ (rest.takeWhile (· == '#')).length ∧ (rest.takeWhile (· == '#')).length ≤ 6 then
        textPattern.first (tailPattern.first fun m => some m.groups)
          ⟨[(1, rest.takeWhile (· == '#'))], rest.dropWhile (· == '#')⟩
      else none := by
  rw [Pattern.match?_eq, linePattern, Pattern.first_seq, Pattern.first_run, findSome?_repeats_greedy]
  · simp only [Nat.zero_le, true_and, Option.all_some, decide_eq_true_eq, Pattern.first_seq]
    rw [unindent?]
    split
    · rw [Option.bind_some, ← first_signsGroup (not_mem_dropWhile _ h)]
    · rfl
  · intro c t ht hc
    have hblank : isSpaceOrTab c = true := by rw [eq_of_beq hc]; rfl
    rw [Pattern.first_seq, first_signsGroup (mt (ht.subset ·) h), takeWhile_sign_eq_nil hblank, if_neg]
    exact fun hsigns => Nat.not_succ_le_zero 0 hsigns.1

theorem ofGroups?_pair (text signs : Text) : ofGroups? [(2, text), (1, signs)] =
    if strip text ≠ [] then some ⟨strip text, signs.length⟩ else none := (ite_not _ _ _).symm

/-- The heading by the groups that the pattern finds after the number signs. -/
theorem ofGroups_eq (signs : Text) (h : '\n' ∉ after) :
    (textPattern.first (tailPattern.first fun m => some m.groups) ⟨[(1, signs)], after⟩).bind
      ofGroups? =
      if after.head?.all isSpaceOrTab = true ∧
          strip (dropClosing (stripOf isSpaceOrTab after)) ≠ [] then
        some ⟨strip (dropClosing (stripOf isSpaceOrTab after)), signs.length⟩
      else none := by
  cases after with
  | nil =>
    have hrun : repeats isSpaceOrTab true 1 none [] = [] := rfl
    rw [textPattern, Pattern.first_maybe, Pattern.first_seq, Pattern.first_run, hrun,
      List.findSome?_nil, Option.none_or, first_tailPattern h,
      if_pos (.blanks fun c hc => absurd hc List.not_mem_nil), if_neg fun htext => htext.2 rfl]
    rfl
  | cons c rest =>
    by_cases hc : isSpaceOrTab c = true
    · rw [first_textPattern (k := fun m => some m.groups) ⟨c, rfl, hc⟩ h rfl, Option.bind_some,
        List.head?_cons, Option.all_some, ofGroups?_pair, if_congr (and_iff_right hc) rfl rfl]
    · rw [first_textPattern_of_not hc h, if_neg fun htext => hc htext.1]
      rfl

/-- The first way to match the pattern is the one that is found without a search. -/
theorem ofLineByPattern?_eq (h : '\n' ∉ line) : ofLineByPattern? line = ofLine? line := by
  rw [ofLineByPattern?, match?_linePattern h, Option.bind_assoc, ofLine?]
  simp only [bind]
  refine Option.bind_congr fun rest hrest => ?_
  obtain ⟨-, hrest⟩ := Option.ite_none_right_eq_some.1 hrest
  rw [← Option.some.inj hrest]
  split
  next hlevel =>
    rw [ofGroups_eq _ (not_mem_dropWhile _ (not_mem_dropWhile _ h))]
    simp only [hlevel, true_and]
  next hlevel =>
    rw [if_neg fun hline => hlevel ⟨hline.1, hline.2.1⟩]
    rfl

/-! ## Headings read from their start -/

/-- What is kept of a text: what comes before the number signs that close it, if any do. -/
def IsKept (s text : Text) : Prop := IsClosedAfter s text ∨ text = s ∧ ∀ t, ¬IsClosedAfter s t

/-- The line shows the heading: at most three spaces, one to six number signs, and the end of the
    line or a blank, after which the text of the heading is kept. -/
def IsShownBy (heading : Heading) (line : Text) : Prop := ∃ after text,
  IsRun '#' heading.level line after ∧ (1 ≤ heading.level ∧ heading.level ≤ 6) ∧
  (∀ c, after.head? = some c → isSpaceOrTab c = true) ∧ IsKept (stripOf isSpaceOrTab after) text ∧
  heading.text = strip text ∧ heading.text ≠ []

theorem dropClosing_eq_iff : dropClosing s = text ↔ IsKept s text := by
  constructor
  · rintro rfl
    by_cases hclosed : ∃ t, IsClosedAfter s t
    · obtain ⟨t, ht⟩ := hclosed
      exact .inl (ht.dropClosing_eq.symm ▸ ht)
    · exact .inr ⟨(isClosedAfter_or s).resolve_left fun h => hclosed ⟨_, h⟩,
        fun t ht => hclosed ⟨t, ht⟩⟩
  · rintro (hclosed | ⟨rfl, hopen⟩)
    · exact hclosed.dropClosing_eq
    · exact (isClosedAfter_or _).resolve_left (hopen _)

theorem ofLine?_eq_some_iff : ofLine? line = some heading ↔ heading.IsShownBy line := by
  obtain ⟨shown, level⟩ := heading
  rw [ofLine?]
  constructor
  · intro h
    obtain ⟨rest, hrest, h⟩ := Option.bind_eq_some_iff.1 h
    obtain ⟨⟨hleast, hmost, hblank, hne⟩, h⟩ := Option.ite_none_right_eq_some.1 h
    obtain ⟨rfl, rfl⟩ := Heading.mk.inj (Option.some.inj h)
    refine ⟨rest.dropWhile (· == '#'), _, ?_, ⟨hleast, hmost⟩, fun c hc => ?_,
      dropClosing_eq_iff.1 rfl, rfl, hne⟩
    · rw [isRun_iff (by decide) hleast, replicate_append_dropWhile]
      exact ⟨hrest, head?_dropWhile_ne '#' rest⟩
    · rwa [hc, Option.all_some] at hblank
  · rintro ⟨after, text, hrun, hlevel, hblank, hkept, htext, hne⟩
    obtain ⟨hrest, hafter⟩ := (isRun_iff (by decide) hlevel.1).1 hrun
    have hall : after.head?.all isSpaceOrTab = true := by
      cases hc : after.head? with
      | none => rfl
      | some c => exact hblank c hc
    simp only [hrest, bind, Option.bind_some, takeWhile_replicate_append level hafter,
      dropWhile_replicate_append level hafter, List.length_replicate, dropClosing_eq_iff.2 hkept]
    obtain rfl : shown = strip text := htext
    rw [if_pos ⟨hlevel.1, hlevel.2, hall, hne⟩]

/-- A line has no newline. -/
theorem newline_not_mem_of_mem_lines (h : line ∈ Text.lines s) : '\n' ∉ line := by
  fun_induction Text.lines s generalizing line with
  | case1 => cases h
  | case2 rest ih =>
    rcases List.mem_cons.1 h with rfl | h
    · exact List.not_mem_nil
    · exact ih h
  | case3 c rest _ hbreak ih =>
    rcases List.mem_cons.1 h with rfl | h
    · exact List.not_mem_nil
    · exact ih h
  | case4 c rest _ hbreak hlines ih =>
    obtain rfl := List.mem_singleton.1 h
    exact fun hmem => hbreak (List.mem_singleton.1 hmem ▸ rfl)
  | case5 c rest _ hbreak first more hlines ih =>
    rw [hlines] at ih
    rcases List.mem_cons.1 h with rfl | h
    · intro hmem
      rcases List.mem_cons.1 hmem with rfl | hmem
      · exact hbreak rfl
      · exact ih List.mem_cons_self hmem
    · exact ih (List.mem_cons_of_mem _ h)

theorem outside_subset_linesOf (blocks : List Block) : outside blocks ⊆ linesOf blocks := by
  intro l hl
  obtain ⟨block, hblock, hl⟩ := List.mem_flatMap.1 hl
  refine List.mem_flatMap.2 ⟨block, hblock, ?_⟩
  cases block with
  | line => exact hl
  | fenced => cases hl

/-- The headings of a write-up are those that the pattern finds in the lines outside of fenced
    code. It finds in a line the heading that the line shows, read from its start. -/
theorem headings_by_pattern (markdown : Text) :
    ofMarkdown markdown = (outside (Fencing.lenient.cut (Text.lines markdown))).filterMap
      ofLineByPattern? ∧
    ∀ line ∈ Text.lines markdown, ∀ heading : Heading,
      ofLineByPattern? line = some heading ↔ heading.IsShownBy line := by
  refine ⟨?_, fun line hline heading => ?_⟩
  · rw [ofMarkdown_eq]
    refine List.filterMap_congr fun line hline => (ofLineByPattern?_eq ?_).symm
    refine newline_not_mem_of_mem_lines (s := markdown) ?_
    rw [← Fencing.linesOf_cut .lenient (Text.lines markdown)]
    exact outside_subset_linesOf _ hline
  · rw [ofLineByPattern?_eq (newline_not_mem_of_mem_lines hline), ofLine?_eq_some_iff]

/-- Only the last number signs close a heading. -/
theorem headings_by_pattern_signs : "  ## a ## # ".toList ∈ Text.lines "  ## a ## # \n".toList ∧
    ofLineByPattern? "  ## a ## # ".toList = some ⟨"a ##".toList, 2⟩ ∧
    (⟨"a ##".toList, 2⟩ : Heading).IsShownBy "  ## a ## # ".toList :=
  ⟨by decide, by decide,
    ((headings_by_pattern "  ## a ## # \n".toList).2 _ (by decide) _).1 (by decide)⟩

end Marginalia.Heading
