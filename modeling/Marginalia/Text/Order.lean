import Marginalia.Text.Basic

/-!
# The order of texts

Texts are ordered character by character, by code point; a text comes before the
ones it starts.

* `le_total`, `le_trans` and `le_antisymm`: it is a total order.
-/

namespace Marginalia.Text

/-- Whether one text comes before another or is the same. -/
def le : Text → Text → Bool
  | [], _ => true
  | _ :: _, [] => false
  | a :: s, b :: t => a.toNat < b.toNat || (a == b && le s t)

/-- Of two texts one comes before the other. -/
theorem le_total (s t : Text) : (le s t || le t s) = true := by
  induction s generalizing t with
  | nil => rfl
  | cons a s ih =>
    cases t with
    | nil => rfl
    | cons b t =>
      simp only [le]
      by_cases h : a = b
      · subst h
        simpa using ih t
      · have : a.toNat ≠ b.toNat := fun hn => h (Char.toNat_inj.1 hn)
        have : a.toNat < b.toNat ∨ b.toNat < a.toNat := by omega
        rcases this with hlt | hlt <;> simp [hlt]

theorem le_trans {s t u : Text} (h₁ : le s t = true) (h₂ : le t u = true) : le s u = true := by
  induction s generalizing t u with
  | nil => rfl
  | cons a s ih =>
    cases t with
    | nil => cases h₁
    | cons b t =>
      cases u with
      | nil => cases h₂
      | cons c u =>
        simp only [le, Bool.or_eq_true, decide_eq_true_eq, Bool.and_eq_true, beq_iff_eq]
          at h₁ h₂ ⊢
        rcases h₁ with hab | ⟨rfl, h₁⟩ <;> rcases h₂ with hbc | ⟨rfl, h₂⟩
        · exact .inl (by omega)
        · exact .inl hab
        · exact .inl hbc
        · exact .inr ⟨rfl, ih h₁ h₂⟩

theorem le_antisymm {s t : Text} (h₁ : le s t = true) (h₂ : le t s = true) : s = t := by
  induction s generalizing t with
  | nil =>
    cases t with
    | nil => rfl
    | cons b t => cases h₂
  | cons a s ih =>
    cases t with
    | nil => cases h₁
    | cons b t =>
      simp only [le, Bool.or_eq_true, decide_eq_true_eq, Bool.and_eq_true, beq_iff_eq] at h₁ h₂
      rcases h₁ with hab | ⟨rfl, h₁⟩ <;> rcases h₂ with hba | ⟨hba, h₂⟩
      · omega
      · subst hba; omega
      · omega
      · rw [ih h₁ h₂]

/-- The texts in ascending order. -/
def sort (texts : List Text) : List Text := texts.mergeSort le

end Marginalia.Text
