import Marginalia.Text.Lower

/-!
# The lowercase of the end of a text

The lowercase of a text is made character by character, and only that of a capital
sigma depends on the others. The lowercase of a text without one is therefore found
at the end of the lowercase of every text that ends with it (`lower_suffix`). A point
is in small letters already and no other character becomes one, so that a text starts
with a point exactly if its lowercase does (`isPrefixOf_point_lower`).
-/

namespace Marginalia.Text

variable {before before' after after' s t : Text} {c : Char}

/-! ## Characters -/

theorem toNat_ofNat {n : Nat} (h : n.isValidChar) : (Char.ofNat n).toNat = n := by
  rw [Char.ofNat, dif_pos h]
  rfl

/-- The small letters of a run come after the capitals of ASCII. -/
theorem lt_image_of_mem_capitals : ∀ run ∈ capitals, 'Z'.toNat < run.image := by
  decide +kernel

theorem small?_ne_point {run : Capitals} (hrun : run ∈ capitals) (n : Nat) :
    run.small? n ≠ some '.' := by
  intro h
  rw [Capitals.small?, Option.ite_none_right_eq_some] at h
  have hpoint := Option.some.inj h.2
  have himage := lt_image_of_mem_capitals run hrun
  by_cases hvalid : (run.image + (n - run.first)).isValidChar
  · have hnat := toNat_ofNat hvalid
    rw [hpoint] at hnat
    simp only [Char.reduceToNat] at himage hnat
    omega
  · rw [Char.ofNat, dif_neg hvalid] at hpoint
    cases hpoint

theorem eq_point_of_toLower (h : c.toLower = '.') : c = '.' := by
  delta Char.toLower at h
  split at h
  · rename_i hcapital
    have hval := congrArg (fun x => x.val.toNat) h
    have hfirst := UInt32.le_iff_toNat_le.1 hcapital.1
    have hlast := UInt32.le_iff_toNat_le.1 hcapital.2
    simp at hval hfirst hlast
    omega
  · exact h

/-- Only a point becomes a point in small letters. -/
theorem lowerChar_eq_point_iff : lowerChar c = '.' ↔ c = '.' := by
  constructor
  · intro h
    rw [lowerChar] at h
    split at h
    · exact eq_point_of_toLower h
    · cases hfind : capitals.findSome? (·.small? c.toNat) with
      | none => rwa [hfind] at h
      | some small =>
        obtain ⟨run, hrun, hsmall⟩ := List.exists_of_findSome?_eq_some hfind
        rw [hfind, Option.getD_some] at h
        exact absurd (h ▸ hsmall) (small?_ne_point hrun _)
  · rintro rfl
    rfl

/-! ## Texts -/

theorem lowerWithin_congr (h : c ≠ 'Σ') :
    lowerWithin before c after = lowerWithin before' c after' := by
  rw [lowerWithin, lowerWithin, if_neg h, if_neg h]

theorem lowerFrom_congr (h : 'Σ' ∉ s) : lowerFrom before s = lowerFrom before' s := by
  induction s generalizing before before' with
  | nil => rfl
  | cons c rest ih =>
    rw [List.mem_cons, not_or] at h
    rw [lowerFrom, lowerFrom, lowerWithin_congr (Ne.symm h.1), ih h.2]

/-- The lowercase of a text ends with that of its end. -/
theorem lower_suffix (h : 'Σ' ∉ t) (hs : t <:+ s) : lower t <:+ lower s := by
  obtain ⟨start, rfl⟩ := hs
  rw [lower, lower]
  generalize ([] : Text) = before
  induction start generalizing before with
  | nil => exact List.suffix_refl _
  | cons c start ih =>
    rw [lowerFrom_congr h]
    exact (ih (c :: before)).trans (List.suffix_append ..)

/-- The lowercase of a text has what its characters become. -/
theorem exists_lowerWithin_subset (before : Text) (h : c ∈ s) :
    ∃ before' after, lowerWithin before' c after ⊆ lowerFrom before s := by
  induction s generalizing before with
  | nil => cases h
  | cons x rest ih =>
    rcases List.mem_cons.1 h with rfl | h
    · exact ⟨before, rest, List.subset_append_left ..⟩
    · obtain ⟨before', after, hsub⟩ := ih (x :: before) h
      exact ⟨before', after, List.Subset.trans hsub (List.subset_append_right ..)⟩

/-- A text starts with a point exactly if its lowercase does. -/
theorem isPrefixOf_point_lower (s : Text) : ['.'].isPrefixOf (lower s) = ['.'].isPrefixOf s := by
  cases s with
  | nil => rfl
  | cons c rest =>
    have hhead : ∀ (x : Char) (more : Text), ['.'].isPrefixOf (x :: more) = ('.' == x) :=
      fun _ _ => Bool.and_true _
    rw [lower, lowerFrom, lowerWithin, hhead]
    split
    · rename_i hc
      subst hc
      split <;> rfl
    · split
      · rename_i hc
        subst hc
        rfl
      · rw [List.cons_append, hhead, Bool.eq_iff_iff, beq_iff_eq, beq_iff_eq, eq_comm,
          lowerChar_eq_point_iff, eq_comm]

end Marginalia.Text
