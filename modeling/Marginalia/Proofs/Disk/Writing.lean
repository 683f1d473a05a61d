import Marginalia.Proofs.Disk.Path

/-!
# Written paths

What is read off the writing of a path is the path, but for the number of slashes
that an absolute path is written with. A path therefore leads to the same location
as its writing (`Disk.resolve_ofText_text`).
-/

namespace Marginalia

namespace Path

variable {p : Path}

/-- The writing of a path has the parts of the path. -/
theorem parts_ofText_text (hne : p.parts ≠ []) :
    (ofText p.text).parts = p.parts := by
  have hidle : (List.replicate p.slashes ([] : Text)).filter (!isIdle ·) = [] := by
    rw [List.filter_replicate]
    rfl
  change (Text.splitAt '/' p.text).filter (!isIdle ·) = p.parts
  rw [text_of_parts_ne_nil hne, Text.splitAt_replicate_append,
    Text.splitAt_joinWith hne fun part hpart => (p.proper part hpart).2, List.filter_append, hidle,
    List.nil_append, List.filter_eq_self]
  intro part hpart
  rw [(p.proper part hpart).1]
  rfl

theorem isAbsolute_ofText_cons (c : Char) (s : Text) :
    (ofText (c :: s)).isAbsolute = (c == '/') := by
  rw [isAbsolute, ofText, List.takeWhile_cons]
  cases c == '/' with
  | false => rfl
  | true =>
    rw [if_pos rfl, List.length_cons]
    dsimp only
    split
    · omega
    all_goals rfl

/-- The writing of a path is absolute if the path is. -/
theorem isAbsolute_ofText_text (hne : p.parts ≠ []) :
    (ofText p.text).isAbsolute = p.isAbsolute := by
  rw [text_of_parts_ne_nil hne]
  cases hslashes : p.slashes with
  | zero =>
    -- The first name does not start with a slash.
    obtain ⟨first, rest, hparts⟩ := List.exists_cons_of_ne_nil hne
    have hfirst : first ∈ p.parts := hparts ▸ List.mem_cons_self
    cases first with
    | nil => cases (p.proper _ hfirst).1
    | cons c name =>
      have hc : (c == '/') = false :=
        beq_eq_false_iff_ne.2 fun hc => (p.proper _ hfirst).2 (hc ▸ List.mem_cons_self)
      obtain ⟨more, hjoin⟩ : ∃ more, Text.joinWith '/' p.parts = c :: more := by
        rw [hparts]
        cases rest <;> simp [Text.joinWith, List.intercalate_cons_cons]
      rw [List.replicate_zero, List.nil_append, hjoin, isAbsolute_ofText_cons, hc, isAbsolute,
        hslashes]
      rfl
  | succ n =>
    rw [List.replicate_succ, List.cons_append, isAbsolute_ofText_cons, isAbsolute, hslashes]
    rfl

/-- The writing of a path that is more than a name ends with its last name. -/
theorem exists_splitAt_text_child (p : Path) {name : Text} (hname : Disk.IsName name)
    (hne : p.parts ≠ []) :
    ∃ pieces, Text.splitAt '/' (p.child name).text = pieces ++ [name] ∧ pieces ≠ [] := by
  rw [text_of_parts_ne_nil (parts_child_ne_nil p hname), Text.splitAt_replicate_append,
    parts_child p hname, Text.joinWith_concat hne, Text.splitAt_append_cons,
    Text.splitAt_of_not_mem hname.not_mem, ← List.append_assoc]
  exact ⟨_, rfl, List.append_ne_nil_of_right_ne_nil _ (Text.splitAt_ne_nil _ _)⟩

end Path

/-- A path leads where its writing leads. -/
theorem Disk.resolve_ofText_text (d : Disk) {p : Path} (hne : p.parts ≠ []) :
    d.resolve (.ofText p.text) = d.resolve p := by
  rw [resolve, resolve, startOf, startOf, Path.parts_ofText_text hne,
    Path.isAbsolute_ofText_text hne]

end Marginalia
