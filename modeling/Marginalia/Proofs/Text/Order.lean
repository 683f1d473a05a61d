import Mathlib.Data.List.Sort
import Marginalia.Text.Order

/-!
# Texts in order

Sorting a list gives the same answer whatever order it was in
(`mergeSort_eq_of_perm`). Texts that all differ are then in ascending order
(`ascending_sort`), and such a list is told by its members
(`Ascending.eq_of_mem_iff`).
-/

namespace Marginalia.Text

/-- Sorting by a total order forgets the order of a list. -/
theorem mergeSort_eq_of_perm {α : Type} {le : α → α → Bool} {as bs : List α}
    (trans : ∀ a b c, le a b = true → le b c = true → le a c = true)
    (total : ∀ a b, (le a b || le b a) = true)
    (antisymm : ∀ a b, le a b = true → le b a = true → a = b) (h : as.Perm bs) :
    as.mergeSort le = bs.mergeSort le := by
  have hperm : (as.mergeSort le).Perm (bs.mergeSort le) :=
    (List.mergeSort_perm as le).trans (h.trans (List.mergeSort_perm bs le).symm)
  exact hperm.eq_of_pairwise (fun a b _ _ => antisymm a b)
    (List.pairwise_mergeSort trans total as) (List.pairwise_mergeSort trans total bs)

/-- The texts come in ascending order, and each once. -/
def Ascending (texts : List Text) : Prop := texts.Pairwise fun s t => le s t = true ∧ s ≠ t

instance (texts : List Text) : Decidable (Ascending texts) :=
  inferInstanceAs (Decidable (texts.Pairwise fun s t => le s t = true ∧ s ≠ t))

variable {texts more : List Text}

theorem mem_sort_iff {s : Text} : s ∈ sort texts ↔ s ∈ texts :=
  (List.mergeSort_perm texts le).mem_iff

theorem ascending_sort (h : texts.Nodup) : Ascending (sort texts) := by
  have hnodup : (sort texts).Nodup := (List.mergeSort_perm texts le).nodup_iff.2 h
  have hsorted : (sort texts).Pairwise fun s t => le s t = true :=
    @List.pairwise_mergeSort Text le (fun _ _ _ => le_trans) le_total texts
  exact hsorted.and hnodup

theorem Ascending.nodup (h : Ascending texts) : texts.Nodup := List.Pairwise.imp And.right h

theorem Ascending.sublist (h : Ascending more) (hsub : texts.Sublist more) : Ascending texts :=
  List.Pairwise.sublist hsub h

/-- Texts in ascending order are told by which they are. -/
theorem Ascending.eq_of_mem_iff (h : Ascending texts) (h' : Ascending more)
    (hmem : ∀ s, s ∈ texts ↔ s ∈ more) : texts = more :=
  ((List.perm_ext_iff_of_nodup h.nodup h'.nodup).2 hmem).eq_of_pairwise
    (fun _ _ _ _ hle hle' => le_antisymm hle.1 hle'.1) h h'

end Marginalia.Text
