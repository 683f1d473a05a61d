import Marginalia.Proofs.Text.Lower

/-!
# Small letters

A character is small if it is its own lowercase. The lowercase of a text is made of small
characters (`isSmall_of_mem_lower`), and a text of small characters is its own lowercase
(`lower_eq_self`). For the characters with a small letter this is read off the table: where
the images of a run lie within a run of capitals, they lie between those capitals
(`all_isApart_capitals`).
-/

namespace Marginalia.Text

variable {before after s : Text} {c : Char}

/-! ## The table -/

/-- No capital of `other` is the image of one of `run`: the images are past them, before them,
    or every other character between them. -/
def Capitals.isApart (run other : Capitals) : Bool :=
  Nat.blt other.last run.image || Nat.blt (run.image + (run.last - run.first)) other.first ||
    Nat.beq other.step 2 && (Nat.beq run.step 2 || Nat.ble run.last run.first) &&
      Nat.beq ((run.image + other.first) % 2) 1

theorem all_isApart_capitals :
    (capitals.all fun run => capitals.all run.isApart) = true := by
  decide +kernel

/-- The dotted capital I is no image. -/
theorem ne_dottedI_of_mem_capitals : ∀ run ∈ capitals,
    run.image + (run.last - run.first) < 'İ'.toNat ∨ 'İ'.toNat < run.image := by
  decide +kernel

theorem Capitals.small?_eq_none_of_isApart {run other : Capitals} (h : run.isApart other = true)
    {n : Nat} (hfirst : run.first ≤ n) (hlast : n ≤ run.last)
    (hstep : (n - run.first) % run.step = 0) :
    other.small? (run.image + (n - run.first)) = none := by
  simp only [isApart, Bool.or_eq_true, Bool.and_eq_true, Nat.blt_eq, Nat.beq_eq, Nat.ble_eq] at h
  rw [Capitals.small?, if_neg]
  rintro ⟨hotherFirst, hotherLast, hotherStep⟩
  rcases h with (h | h) | ⟨⟨htwo, hrun⟩, hodd⟩
  · omega
  · omega
  · rw [htwo] at hotherStep
    rcases hrun with hrun | hrun
    · rw [hrun] at hstep
      omega
    · omega

/-! ## Characters -/

/-- The character is its own lowercase. -/
def IsSmall (c : Char) : Prop := lower [c] = [c]

instance (c : Char) : Decidable (IsSmall c) := inferInstanceAs (Decidable (_ = _))

theorem lowerChar_of_ascii : ∀ n < 0x80, lowerChar (lowerChar (Char.ofNat n)) =
    lowerChar (Char.ofNat n) ∧ ('Z'.toNat < n → lowerChar (Char.ofNat n) = Char.ofNat n) ∧
      lowerChar (Char.ofNat n) ≠ 'İ' := by
  decide +kernel

/-- A character from U+0080 on is its own lowercase or has a small letter in the table. -/
theorem lowerChar_eq_self_or (h : ¬c.toNat < 0x80) : lowerChar c = c ∨
    ∃ run ∈ capitals, (run.first ≤ c.toNat ∧ c.toNat ≤ run.last ∧
      (c.toNat - run.first) % run.step = 0) ∧
      lowerChar c = Char.ofNat (run.image + (c.toNat - run.first)) := by
  rw [lowerChar, if_neg h]
  cases hfind : capitals.findSome? (·.small? c.toNat) with
  | none => exact .inl rfl
  | some small =>
    obtain ⟨run, hrun, hsmall⟩ := List.exists_of_findSome?_eq_some hfind
    rw [Capitals.small?, Option.ite_none_right_eq_some] at hsmall
    exact .inr ⟨run, hrun, hsmall.1, (Option.some.inj hsmall.2).symm⟩

/-- The image of a capital is its own lowercase. -/
theorem lowerChar_image {run : Capitals} (hrun : run ∈ capitals) {n : Nat}
    (h : run.first ≤ n ∧ n ≤ run.last ∧ (n - run.first) % run.step = 0) :
    lowerChar (Char.ofNat (run.image + (n - run.first))) =
      Char.ofNat (run.image + (n - run.first)) := by
  by_cases hvalid : (run.image + (n - run.first)).isValidChar
  · by_cases hascii : run.image + (n - run.first) < 0x80
    · have hlow := lt_image_of_mem_capitals run hrun
      exact (lowerChar_of_ascii _ hascii).2.1 (by omega)
    · have hnone : capitals.findSome? (·.small? (run.image + (n - run.first))) = none := by
        rw [List.findSome?_eq_none_iff]
        intro other hother
        have hapart := List.all_eq_true.1 (List.all_eq_true.1 all_isApart_capitals run hrun) other
          hother
        exact Capitals.small?_eq_none_of_isApart hapart h.1 h.2.1 h.2.2
      rw [lowerChar, toNat_ofNat hvalid, if_neg hascii, hnone, Option.getD_none]
  · rw [Char.ofNat, dif_neg hvalid]
    rfl

/-- What a character becomes is its own lowercase. -/
theorem lowerChar_lowerChar (c : Char) : lowerChar (lowerChar c) = lowerChar c := by
  by_cases hascii : c.toNat < 0x80
  · have h := (lowerChar_of_ascii _ hascii).1
    rwa [Char.ofNat_toNat] at h
  · rcases lowerChar_eq_self_or hascii with h | ⟨run, hrun, hn, h⟩
    · rw [h, h]
    · rw [h, lowerChar_image hrun hn]

/-- The dotted capital I is the lowercase of itself alone, character by character. -/
theorem eq_dottedI_of_lowerChar (h : lowerChar c = 'İ') : c = 'İ' := by
  by_cases hascii : c.toNat < 0x80
  · have hne := (lowerChar_of_ascii _ hascii).2.2
    rw [Char.ofNat_toNat] at hne
    exact absurd h hne
  · rcases lowerChar_eq_self_or hascii with hself | ⟨run, hrun, hn, himage⟩
    · rwa [hself] at h
    · have hout := ne_dottedI_of_mem_capitals run hrun
      rw [himage] at h
      by_cases hvalid : (run.image + (c.toNat - run.first)).isValidChar
      · have hnat := toNat_ofNat hvalid
        rw [h] at hnat
        omega
      · rw [Char.ofNat, dif_neg hvalid] at h
        cases h

theorem isSmall_iff : IsSmall c ↔ c ≠ 'Σ' ∧ c ≠ 'İ' ∧ lowerChar c = c := by
  have hlower : lower [c] = lowerWithin [] c [] := List.append_nil _
  rw [IsSmall, hlower, lowerWithin]
  split
  · rename_i hsigma
    subst hsigma
    simp [meetsCased]
  · rename_i hsigma
    split
    · rename_i hdotted
      subst hdotted
      simp
    · rename_i hdotted
      rw [List.singleton_inj]
      exact ⟨fun h => ⟨hsigma, hdotted, h⟩, fun h => h.2.2⟩

/-- A capital sigma has a small letter. -/
theorem lowerChar_sigma_ne : lowerChar 'Σ' ≠ 'Σ' := by
  decide +kernel

theorem isSmall_lowerChar (h : c ≠ 'İ') : IsSmall (lowerChar c) := by
  refine isSmall_iff.2 ⟨fun hsigma => ?_, fun hdotted => h (eq_dottedI_of_lowerChar hdotted),
    lowerChar_lowerChar c⟩
  have hfixed := lowerChar_lowerChar c
  rw [hsigma] at hfixed
  exact lowerChar_sigma_ne hfixed

/-! ## Texts -/

theorem isSmall_of_mem_lowerWithin {d : Char} (h : d ∈ lowerWithin before c after) : IsSmall d := by
  rw [lowerWithin] at h
  split at h
  · have hsigmas : IsSmall 'ς' ∧ IsSmall 'σ' := by decide +kernel
    split at h
    · exact List.mem_singleton.1 h ▸ hsigmas.1
    · exact List.mem_singleton.1 h ▸ hsigmas.2
  · split at h
    · have hdotted : IsSmall 'i' ∧ IsSmall '\u0307' := by decide +kernel
      rcases List.mem_cons.1 h with rfl | h
      · exact hdotted.1
      · exact List.mem_singleton.1 h ▸ hdotted.2
    · rename_i hdotted
      exact List.mem_singleton.1 h ▸ isSmall_lowerChar hdotted

theorem isSmall_of_mem_lowerFrom {d : Char} (h : d ∈ lowerFrom before s) : IsSmall d := by
  induction s generalizing before with
  | nil => cases h
  | cons c rest ih =>
    rw [lowerFrom, List.mem_append] at h
    rcases h with h | h
    · exact isSmall_of_mem_lowerWithin h
    · exact ih h

/-- Every character of a lowercase text is its own lowercase. -/
theorem isSmall_of_mem_lower (h : c ∈ lower s) : IsSmall c := isSmall_of_mem_lowerFrom h

theorem lowerFrom_eq_self (h : ∀ c ∈ s, IsSmall c) : lowerFrom before s = s := by
  induction s generalizing before with
  | nil => rfl
  | cons c rest ih =>
    rw [List.forall_mem_cons, isSmall_iff] at h
    obtain ⟨⟨hsigma, hdotted, hself⟩, hrest⟩ := h
    rw [lowerFrom, lowerWithin, if_neg hsigma, if_neg hdotted, hself, ih hrest,
      List.singleton_append]

/-- A text of characters that are their own lowercase is left unchanged. -/
theorem lower_eq_self (h : ∀ c ∈ s, IsSmall c) : lower s = s := lowerFrom_eq_self h

end Marginalia.Text
