import Marginalia.Project.Content
import Marginalia.Proofs.Disk.Tree
import Marginalia.Proofs.Text.Order

/-!
# The order of sources

Sketches come before other sources, and each in the order of their names. This is
a total order of names (`comesFirst_trans`, `comesFirst_total`,
`comesFirst_antisymm`), so the order in which a disk lists a directory says nothing
about the order of the sources in it (`sourceNames_congr`).
-/

namespace Marginalia.Content

variable {a b c : Text} {d d' : Disk} {path : Path} {l : Location} {name : Text}

theorem comesFirst_eq_true_iff : comesFirst a b = true ↔
    isSketch a = isSketch b ∧ Text.le a b = true ∨ isSketch a = true ∧ isSketch b = false := by
  rw [comesFirst]
  cases isSketch a <;> cases isSketch b <;> simp

theorem comesFirst_trans (hab : comesFirst a b = true) (hbc : comesFirst b c = true) :
    comesFirst a c = true := by
  rw [comesFirst_eq_true_iff] at *
  rcases hab with ⟨hab, hle⟩ | ⟨ha, hb⟩ <;> rcases hbc with ⟨hbc, hle'⟩ | ⟨hb', hc⟩
  · exact .inl ⟨hab.trans hbc, Text.le_trans hle hle'⟩
  · exact .inr ⟨hab.trans hb', hc⟩
  · exact .inr ⟨ha, hbc ▸ hb⟩
  · exact .inr ⟨ha, hc⟩

theorem comesFirst_total (a b : Text) : (comesFirst a b || comesFirst b a) = true := by
  rw [comesFirst, comesFirst]
  have := Text.le_total a b
  cases isSketch a <;> cases isSketch b <;> simp_all

theorem comesFirst_antisymm (hab : comesFirst a b = true) (hba : comesFirst b a = true) : a = b := by
  rw [comesFirst_eq_true_iff] at *
  rcases hab with ⟨_, hle⟩ | ⟨ha, hb⟩ <;> rcases hba with ⟨_, hle'⟩ | ⟨hb', ha'⟩
  · exact Text.le_antisymm hle hle'
  all_goals simp_all

/-- The names of the sources that stand in a directory, in the order of the disk. -/
def namesOfSources (entries : List (Text × Disk.Entry)) : List Text :=
  (entries.filter fun (name, entry) => entry.isFile && isSource name).map (·.1)

theorem mem_namesOfSources {entries : List (Text × Disk.Entry)} : name ∈ namesOfSources entries ↔
    (∃ bytes modified, (name, .file bytes modified) ∈ entries) ∧ isSource name = true := by
  rw [namesOfSources, List.mem_map]
  constructor
  · rintro ⟨⟨_, entry⟩, hmem, rfl⟩
    obtain ⟨hentry, hsource⟩ := List.mem_filter.1 hmem
    obtain ⟨hfile, hsource⟩ := Bool.and_eq_true_iff.1 hsource
    cases entry with
    | directory => cases hfile
    | file bytes modified => exact ⟨⟨bytes, modified, hentry⟩, hsource⟩
  · rintro ⟨⟨bytes, modified, hentry⟩, hsource⟩
    exact ⟨_, List.mem_filter.2 ⟨hentry, Bool.and_eq_true_iff.2 ⟨rfl, hsource⟩⟩, rfl⟩

theorem mem_namesOfSources_iff (ht : d.IsTree) :
    name ∈ namesOfSources (d.childrenOf l) ↔ d.bytesAt (l ++ [name]) ≠ none ∧ isSource name := by
  simp only [mem_namesOfSources, Disk.mem_childrenOf_iff ht.nodup, Option.ne_none_iff_exists',
    Disk.bytesAt_eq_some_iff]

theorem nodup_namesOfSources (ht : d.IsTree) : (namesOfSources (d.childrenOf l)).Nodup :=
  (Disk.nodup_childrenOf ht.nodup l).sublist (List.filter_sublist.map _)

theorem sourceNames_eq (h : d.locate path = .ok l) :
    sourceNames d path = (namesOfSources (d.childrenOf l)).mergeSort comesFirst := by
  rw [sourceNames, Disk.children, h]
  rfl

theorem mem_sourceNames_iff (ht : d.IsTree) (h : d.locate path = .ok l) :
    name ∈ sourceNames d path ↔ d.bytesAt (l ++ [name]) ≠ none ∧ isSource name := by
  rw [sourceNames_eq h, (List.mergeSort_perm _ _).mem_iff, mem_namesOfSources_iff ht]

/-- The sources of a directory depend on its files only. -/
theorem sourceNames_congr (ht : d.IsTree) (ht' : d'.IsTree) (h : d.locate path = .ok l)
    (h' : d'.locate path = .ok l)
    (hsame : ∀ name, d'.bytesAt (l ++ [name]) = d.bytesAt (l ++ [name])) :
    sourceNames d' path = sourceNames d path := by
  rw [sourceNames_eq h, sourceNames_eq h']
  refine Text.mergeSort_eq_of_perm (fun _ _ _ => comesFirst_trans) comesFirst_total
    (fun _ _ => comesFirst_antisymm) ?_
  rw [List.perm_ext_iff_of_nodup (nodup_namesOfSources ht') (nodup_namesOfSources ht)]
  intro name
  rw [mem_namesOfSources_iff ht, mem_namesOfSources_iff ht', hsame]

end Marginalia.Content
