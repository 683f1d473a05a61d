import Marginalia.Text.Basic

/-!
# Splitting and joining

Splitting undoes joining (`splitAt_joinWith`) as joining undoes splitting, and the last
piece of a text has all of its end that the splitting leaves in one piece
(`exists_last_piece`). What pieces are joined with is stripped from the text as empty
pieces are from the list of them (`stripOf_joinWith`).
-/

namespace Marginalia.Text

variable {c : Char} {s t piece : Text} {pieces : List Text}

theorem splitAt_of_not_mem (h : c ∉ s) : splitAt c s = [s] := by
  induction s with
  | nil => rfl
  | cons x rest ih =>
    have hx : x ≠ c := fun hx => h (hx ▸ List.mem_cons_self)
    rw [splitAt, if_neg hx, ih fun hrest => h (List.mem_cons_of_mem _ hrest)]

/-- Splitting a text splits what is before and what is after a place to split at. -/
theorem splitAt_append_cons (c : Char) (s t : Text) :
    splitAt c (s ++ c :: t) = splitAt c s ++ splitAt c t := by
  induction s with
  | nil => simp [splitAt]
  | cons x rest ih =>
    rw [List.cons_append, splitAt, splitAt, ih]
    split
    · rfl
    · obtain ⟨first, more, hpieces⟩ := List.exists_cons_of_ne_nil (splitAt_ne_nil c rest)
      rw [hpieces]
      rfl

theorem joinWith_singleton (c : Char) (piece : Text) : joinWith c [piece] = piece :=
  List.append_nil piece

theorem joinWith_cons (h : pieces ≠ []) :
    joinWith c (piece :: pieces) = piece ++ c :: joinWith c pieces := by
  obtain ⟨second, rest, rfl⟩ := List.exists_cons_of_ne_nil h
  rw [joinWith, List.intercalate_cons_cons, List.append_assoc, List.singleton_append, joinWith]

/-- Splitting joined pieces gives the pieces. -/
theorem splitAt_joinWith (hne : pieces ≠ []) (h : ∀ piece ∈ pieces, c ∉ piece) :
    splitAt c (joinWith c pieces) = pieces := by
  induction pieces with
  | nil => exact absurd rfl hne
  | cons first rest ih =>
    rw [List.forall_mem_cons] at h
    cases rest with
    | nil => rw [joinWith_singleton, splitAt_of_not_mem h.1]
    | cons second rest =>
      rw [joinWith_cons (List.cons_ne_nil _ _), splitAt_append_cons, splitAt_of_not_mem h.1,
        ih (List.cons_ne_nil _ _) h.2]
      rfl

theorem splitAt_replicate_append (c : Char) (n : Nat) (s : Text) :
    splitAt c (List.replicate n c ++ s) = List.replicate n [] ++ splitAt c s := by
  induction n with
  | zero => rfl
  | succ n ih =>
    rw [List.replicate_succ, List.cons_append, splitAt, if_pos rfl, ih]
    rfl

/-- The last piece of a text ends with every end of the text that is not split. -/
theorem exists_last_piece (hs : t <:+ s) (h : c ∉ t) :
    ∃ piece, (splitAt c s).getLast? = some piece ∧ t <:+ piece := by
  obtain ⟨start, rfl⟩ := hs
  induction start with
  | nil => exact ⟨t, by rw [List.nil_append, splitAt_of_not_mem h]; rfl, List.suffix_refl t⟩
  | cons x start ih =>
    obtain ⟨piece, hlast, hsuffix⟩ := ih
    obtain ⟨first, more, hpieces⟩ := List.exists_cons_of_ne_nil (splitAt_ne_nil c (start ++ t))
    rw [List.cons_append, splitAt]
    rw [hpieces] at hlast ⊢
    split
    · exact ⟨piece, by rw [List.getLast?_cons_cons, hlast], hsuffix⟩
    · -- The first piece is one character longer, and may be the last one.
      cases more with
      | nil =>
        obtain rfl := Option.some.inj hlast
        exact ⟨x :: first, rfl, hsuffix.trans (List.suffix_cons ..)⟩
      | cons second more => exact ⟨piece, hlast, hsuffix⟩

theorem joinWith_concat (h : pieces ≠ []) :
    joinWith c (pieces ++ [piece]) = joinWith c pieces ++ c :: piece := by
  induction pieces with
  | nil => exact absurd rfl h
  | cons first rest ih =>
    cases rest with
    | nil => rw [List.singleton_append, joinWith_cons (List.cons_ne_nil _ _), joinWith_singleton,
        joinWith_singleton]
    | cons second rest =>
      rw [List.cons_append, joinWith_cons (List.append_ne_nil_of_left_ne_nil (List.cons_ne_nil _ _) _),
        ih (List.cons_ne_nil _ _), joinWith_cons (List.cons_ne_nil _ _), List.append_assoc,
        List.cons_append]

theorem mem_joinWith {d : Char} (h : d ∈ joinWith c pieces) :
    d = c ∨ ∃ piece ∈ pieces, d ∈ piece := by
  induction pieces with
  | nil => cases h
  | cons first rest ih =>
    cases rest with
    | nil => exact .inr ⟨first, List.mem_cons_self, by rwa [joinWith_singleton] at h⟩
    | cons second rest =>
      rw [joinWith_cons (List.cons_ne_nil _ _), List.mem_append, List.mem_cons] at h
      rcases h with h | h | h
      · exact .inr ⟨first, List.mem_cons_self, h⟩
      · exact .inl h
      · rcases ih h with h | ⟨piece, hpiece, h⟩
        · exact .inl h
        · exact .inr ⟨piece, List.mem_cons_of_mem _ hpiece, h⟩

/-- Pieces that are not empty have one character between them, and no more. -/
theorem not_isInfix_joinWith (h : ∀ piece ∈ pieces, piece ≠ [] ∧ c ∉ piece) :
    ¬[c, c] <:+: joinWith c pieces := by
  rintro ⟨before, after, heq⟩
  have hne : pieces ≠ [] := by
    rintro rfl
    simp [joinWith] at heq
  have hsplit := splitAt_joinWith hne fun piece hpiece => (h piece hpiece).2
  rw [← heq, List.append_assoc, List.cons_append, splitAt_append_cons, List.cons_append,
    List.nil_append, splitAt, if_pos rfl] at hsplit
  exact (h [] (hsplit ▸ List.mem_append_right _ List.mem_cons_self)).1 rfl

/-! ## Stripping what pieces are joined with -/

theorem reverse_joinWith (c : Char) (pieces : List Text) :
    (joinWith c pieces).reverse = joinWith c (pieces.map List.reverse).reverse := by
  induction pieces with
  | nil => rfl
  | cons first rest ih =>
    cases rest with
    | nil => simp only [List.map_cons, List.map_nil, List.reverse_singleton, joinWith_singleton]
    | cons second rest =>
      have hne : ((second :: rest).map List.reverse).reverse ≠ [] := by simp
      rw [joinWith_cons (List.cons_ne_nil _ _), List.reverse_append, List.reverse_cons, ih,
        List.append_assoc, List.singleton_append, ← joinWith_concat hne, ← List.reverse_cons,
        ← List.map_cons]

theorem dropWhile_joinWith (h : ∀ piece ∈ pieces, c ∉ piece) :
    (joinWith c pieces).dropWhile (· == c) = joinWith c (pieces.dropWhile List.isEmpty) := by
  induction pieces with
  | nil => rfl
  | cons first rest ih =>
    rw [List.forall_mem_cons] at h
    cases first with
    | nil =>
      rw [List.dropWhile_cons_of_pos rfl, ← ih h.2]
      cases rest with
      | nil => rfl
      | cons second rest =>
        rw [joinWith_cons (List.cons_ne_nil _ _), List.nil_append]
        exact List.dropWhile_cons_of_pos (BEq.refl c)
    | cons x first =>
      -- The first piece starts with another character, which ends the dropping in both.
      obtain ⟨more, hmore⟩ : ∃ more, joinWith c ((x :: first) :: rest) = x :: more := by
        cases rest with
        | nil => exact ⟨first, joinWith_singleton c _⟩
        | cons second rest => exact ⟨_, joinWith_cons (List.cons_ne_nil _ _)⟩
      have hx : ¬(x == c) = true := fun hx => h.1 (eq_of_beq hx ▸ List.mem_cons_self)
      rw [List.dropWhile_cons_of_neg Bool.false_ne_true, hmore]
      exact List.dropWhile_cons_of_neg hx

theorem dropEndWhile_joinWith (h : ∀ piece ∈ pieces, c ∉ piece) :
    dropEndWhile (· == c) (joinWith c pieces) = joinWith c (dropEndWhile List.isEmpty pieces) := by
  have hreversed : ∀ piece ∈ (pieces.map List.reverse).reverse, c ∉ piece := by
    intro piece hpiece
    rw [List.mem_reverse, List.mem_map] at hpiece
    obtain ⟨original, horiginal, rfl⟩ := hpiece
    exact fun hc => h original horiginal (List.mem_reverse.1 hc)
  have hempty : List.isEmpty ∘ List.reverse = (List.isEmpty : Text → Bool) := by
    funext piece
    exact List.isEmpty_reverse
  have hdrop : ((pieces.map List.reverse).reverse.dropWhile List.isEmpty).map List.reverse =
      pieces.reverse.dropWhile List.isEmpty := by
    rw [← List.map_reverse, List.dropWhile_map, hempty, List.map_map]
    exact (List.map_congr_left fun piece _ => List.reverse_reverse piece).trans (List.map_id _)
  rw [dropEndWhile, reverse_joinWith, dropWhile_joinWith hreversed, reverse_joinWith, hdrop,
    dropEndWhile]

/-- Stripping what pieces are joined with takes away the empty ones at the ends. -/
theorem stripOf_joinWith (h : ∀ piece ∈ pieces, c ∉ piece) :
    stripOf (· == c) (joinWith c pieces) = joinWith c (stripOf List.isEmpty pieces) := by
  rw [stripOf, dropWhile_joinWith h, dropEndWhile_joinWith fun piece hpiece =>
    h piece ((List.dropWhile_sublist _).subset hpiece), stripOf]

end Marginalia.Text
