import Mathlib.Data.List.DropRight
import Marginalia.Text.Basic

/-!
# Searching and stripping

What a search for a part, a start and stripping at an end say about the text.
-/

namespace Marginalia.Text

/-- A part that is found is in the text, where it is found. -/
theorem exists_append_of_find? {part s : Text} {n : Nat} (h : find? part s = some n) :
    ∃ before after, s = before ++ part ++ after ∧ before.length = n := by
  induction s generalizing n with
  | nil =>
    rw [find?] at h
    split at h
    · rename_i he
      obtain rfl := List.isEmpty_iff.1 he
      exact ⟨[], [], rfl, Option.some.inj h⟩
    · cases h
  | cons c rest ih =>
    rw [find?] at h
    split at h
    · rename_i hp
      obtain ⟨after, ha⟩ := List.isPrefixOf_iff_prefix.1 hp
      exact ⟨[], after, ha.symm, Option.some.inj h⟩
    · obtain ⟨m, hm, rfl⟩ := Option.map_eq_some_iff.1 h
      obtain ⟨before, after, hs, rfl⟩ := ih hm
      exact ⟨c :: before, after, by rw [hs]; rfl, rfl⟩

/-! ## Starts -/

theorem startsWithAny_eq_true_iff {starts : List Text} {s : Text} :
    startsWithAny starts s = true ↔ ∃ start ∈ starts, start <+: s := by
  simp only [startsWithAny, List.any_eq_true, List.isPrefixOf_iff_prefix]

theorem startsWithAny_append {starts : List Text} {s : Text} (h : startsWithAny starts s = true)
    (t : Text) : startsWithAny starts (s ++ t) = true := by
  obtain ⟨start, hstart, hprefix⟩ := startsWithAny_eq_true_iff.1 h
  exact startsWithAny_eq_true_iff.2 ⟨start, hstart, hprefix.trans (List.prefix_append ..)⟩

/-! ## Stripping of any items -/

section StripOf

variable {α : Type} {p : α → Bool} {s t : List α}

theorem dropEndWhile_isPrefix (p : α → Bool) (s : List α) : dropEndWhile p s <+: s :=
  List.rdropWhile_prefix p s

theorem not_of_getLast?_dropEndWhile {x : α} (h : (dropEndWhile p s).getLast? = some x) : ¬p x := by
  have hne : dropEndWhile p s ≠ [] := by rintro hs; simp [hs] at h
  rw [List.getLast?_eq_some_getLast hne] at h
  exact Option.some.inj h ▸ List.rdropWhile_last_not p s hne

theorem dropEndWhile_append_rtakeWhile (p : α → Bool) (s : List α) :
    dropEndWhile p s ++ s.rtakeWhile p = s := List.rdropWhile_append_rtakeWhile

theorem dropEndWhile_eq_self (h : ∀ x, s.getLast? = some x → ¬p x) : dropEndWhile p s = s :=
  List.rdropWhile_eq_self_iff.2 fun hne => h _ (List.getLast?_eq_some_getLast hne)

theorem dropEndWhile_append_of_pos (h : ∀ x ∈ t, p x) :
    dropEndWhile p (s ++ t) = dropEndWhile p s := by
  rw [dropEndWhile, List.reverse_append,
    List.dropWhile_append_of_pos fun x hx => h x (List.mem_reverse.1 hx)]
  rfl

/-- What is dropped at the end of a list comes after its last item that is not to be dropped. -/
theorem dropEndWhile_append_cons {x : α} (hx : ¬p x) (s t : List α) :
    dropEndWhile p (s ++ x :: t) = s ++ x :: dropEndWhile p t := by
  have hdrop : (s ++ x :: t).reverse.dropWhile p = t.reverse.dropWhile p ++ x :: s.reverse := by
    rw [List.reverse_append, List.reverse_cons, List.append_assoc, List.singleton_append,
      List.dropWhile_append]
    split
    · rename_i hempty
      rw [List.isEmpty_iff.1 hempty, List.dropWhile_cons_of_neg hx, List.nil_append]
    · rfl
  rw [dropEndWhile, hdrop, List.reverse_append, List.reverse_cons, List.reverse_reverse,
    List.append_assoc, List.singleton_append]
  rfl

/-- Items around a list are stripped with those at its ends. -/
theorem stripOf_surround {before after : List α} (hbefore : ∀ x ∈ before, p x)
    (hafter : ∀ x ∈ after, p x) (s : List α) :
    stripOf p (before ++ s ++ after) = stripOf p s := by
  have hstart : (before ++ s ++ after).dropWhile p = (s ++ after).dropWhile p := by
    rw [List.append_assoc]
    exact List.dropWhile_append_of_pos hbefore
  rw [stripOf, stripOf, hstart, List.dropWhile_append]
  split
  next hempty =>
    rw [List.isEmpty_iff.1 hempty, List.dropWhile_eq_nil_iff.2 hafter]
  next => exact dropEndWhile_append_of_pos hafter

theorem not_of_head?_stripOf {x : α} (h : (stripOf p s).head? = some x) : ¬p x := by
  obtain ⟨rest, hrest⟩ := List.head?_eq_some_iff.1 h
  obtain ⟨after, hafter⟩ := dropEndWhile_isPrefix p (s.dropWhile p)
  have hnot := List.head?_dropWhile_not p s
  rw [← hafter, ← stripOf, hrest, List.cons_append, List.head?_cons] at hnot
  exact Bool.eq_false_iff.1 hnot

theorem stripOf_isInfix (p : α → Bool) (s : List α) : stripOf p s <:+: s :=
  (dropEndWhile_isPrefix p _).isInfix.trans (List.dropWhile_suffix p).isInfix

theorem not_of_getLast?_stripOf {x : α} (h : (stripOf p s).getLast? = some x) : ¬p x :=
  not_of_getLast?_dropEndWhile h

/-- There is nothing to strip from a list if neither end is to be stripped. -/
theorem stripOf_eq_self_iff : stripOf p s = s ↔
    (∀ x, s.head? = some x → ¬p x) ∧ ∀ x, s.getLast? = some x → ¬p x := by
  constructor
  · intro h
    exact ⟨fun x hx => not_of_head?_stripOf (h.symm ▸ hx),
      fun x hx => not_of_getLast?_stripOf (h.symm ▸ hx)⟩
  · rintro ⟨hhead, hlast⟩
    have hstart : s.dropWhile p = s := by
      cases s with
      | nil => rfl
      | cons x rest => exact List.dropWhile_cons_of_neg (hhead x rfl)
    rw [stripOf, hstart, dropEndWhile_eq_self hlast]

/-- Stripping leaves what no item to be stripped is at either end of. -/
theorem eq_stripOf_iff : t = stripOf p s ↔ ∃ before after, s = before ++ t ++ after ∧
    (∀ x ∈ before ++ after, p x) ∧ (∀ x, t.head? = some x → ¬p x) ∧
    ∀ x, t.getLast? = some x → ¬p x := by
  constructor
  · rintro rfl
    refine ⟨s.takeWhile p, (s.dropWhile p).rtakeWhile p, ?_, ?_, fun x => not_of_head?_stripOf,
      fun x => not_of_getLast?_stripOf⟩
    · rw [List.append_assoc, stripOf]
      exact (List.takeWhile_append_dropWhile.symm.trans
        (congrArg _ (dropEndWhile_append_rtakeWhile p _).symm))
    · intro x hx
      rcases List.mem_append.1 hx with hx | hx
      · exact List.mem_takeWhile_imp hx
      · exact List.mem_rtakeWhile_imp hx
  · rintro ⟨before, after, rfl, hends, hstripped⟩
    rw [stripOf_surround (fun x hx => hends x (List.mem_append_left _ hx))
      (fun x hx => hends x (List.mem_append_right _ hx)), stripOf_eq_self_iff.2 hstripped]

end StripOf

/-! ## Stripping -/

theorem stripEnd_append_blanks (s : Text) : stripEnd s ++ s.rtakeWhile isBlank = s :=
  dropEndWhile_append_rtakeWhile isBlank s

theorem stripEnd_isPrefix (s : Text) : stripEnd s <+: s := dropEndWhile_isPrefix isBlank s

/-- The blanks that are stripped at the end. -/
theorem isBlank_of_mem_blanks {s : Text} {c : Char} (h : c ∈ s.rtakeWhile isBlank) :
    isBlank c := List.mem_rtakeWhile_imp h

theorem stripEnd_eq_nil_iff {s : Text} : stripEnd s = [] ↔ s.isBlankText := by
  rw [isBlankText, List.all_eq_true]
  exact List.rdropWhile_eq_nil_iff

/-- A stripped text does not end with a blank. -/
theorem not_isBlank_of_getLast?_stripEnd {s : Text} {c : Char}
    (h : (stripEnd s).getLast? = some c) : ¬isBlank c := not_of_getLast?_dropEndWhile h

/-! ## Blanks at the ends -/

/-- No printing character of ASCII is blank. -/
theorem toNat_of_isBlank {c : Char} (h : isBlank c) : c.toNat ≤ 0x20 ∨ 0x85 ≤ c.toNat := by
  simp only [isBlank, isSeparator, Bool.or_eq_true, Bool.and_eq_true, beq_iff_eq,
    decide_eq_true_eq] at h
  omega

/-- What is stripped at the end of a text comes after its last character that is
    not blank. -/
theorem stripEnd_append_cons {c : Char} (hc : ¬isBlank c) (s t : Text) :
    stripEnd (s ++ c :: t) = s ++ c :: stripEnd t := dropEndWhile_append_cons hc s t

theorem strip_eq (s : Text) : strip s = stripEnd (stripStart s) := rfl

theorem strip_cons_of_isBlank {c : Char} (hc : isBlank c) (s : Text) : strip (c :: s) = strip s := by
  rw [strip_eq, strip_eq, stripStart, List.dropWhile_cons_of_pos hc]
  rfl

/-- A text without blanks at its ends starts with no blank. -/
theorem not_isBlank_head {c : Char} {s : Text} (h : strip (c :: s) = c :: s) : ¬isBlank c :=
  (stripOf_eq_self_iff.1 h).1 c rfl

/-- A blank before a text without blanks at its ends is stripped with it, if the
    text is empty, and otherwise stays. -/
theorem strip_stripEnd_cons {c : Char} {s : Text} (hc : isBlank c) (h : strip s = s) :
    strip (stripEnd (c :: s)) = s := by
  cases s with
  | nil =>
    have hnil : stripEnd [c] = [] := stripEnd_eq_nil_iff.2 (by rw [isBlankText, List.all_cons, hc]; rfl)
    rw [hnil]
    rfl
  | cons d s =>
    have hd := not_isBlank_head h
    have hstart : stripStart (d :: s) = d :: s := List.dropWhile_cons_of_neg hd
    have hwhole : stripEnd (d :: s) = d :: s := by rwa [strip_eq, hstart] at h
    have hend : d :: stripEnd s = d :: s := (stripEnd_append_cons hd [] s).symm.trans hwhole
    rw [show c :: d :: s = [c] ++ d :: s from rfl, stripEnd_append_cons hd, hend,
      List.singleton_append, strip_cons_of_isBlank hc, h]

/-- Blanks around a text are stripped with those at its ends. -/
theorem strip_surround {a b : Text} (ha : ∀ c ∈ a, isBlank c) (hb : ∀ c ∈ b, isBlank c)
    (s : Text) : strip (a ++ s ++ b) = strip s := stripOf_surround ha hb s

/-- A text is without blanks at its ends if neither end is a blank. -/
theorem strip_eq_self_iff {s : Text} : strip s = s ↔
    (∀ c, s.head? = some c → ¬isBlank c) ∧ ∀ c, s.getLast? = some c → ¬isBlank c :=
  stripOf_eq_self_iff

end Marginalia.Text
