import Marginalia.Proofs.Project.Access
import Marginalia.Proofs.Project.Suffix

/-!
# The sources of a project

The sources of a project are the files directly in its directory whose names have the
suffix of a source, sketches before others and each kind in the order of names; the
first of all is the primary one (`AreSources`). These properties leave no choice, so
the answer is the same in whatever order the disk lists the directory
(`sources_stand_in_order`). There is one if each entry of the directory can be reached by
its path, as long as the encodings that files are taken for are such that they decode in
them (`Encoding.Detector.IsFaithful`).
-/

namespace Marginalia

/-! ## Detectors -/

namespace Content

variable {content : Content} {d d' : Disk} {id a b name code : Text} {path : Path}
  {files : List SourceFile} {entries : List (Text × Disk.Entry)}

/-! ## The order of names -/

/-- Of two names of sources the first one comes first: a sketch before another source, and
    otherwise the one with the smaller name. -/
def StandsBefore (a b : Text) : Prop :=
  HasSuffix ".ino".toList a ∧ ¬HasSuffix ".ino".toList b ∨
    (HasSuffix ".ino".toList a ↔ HasSuffix ".ino".toList b) ∧ Text.le a b = true ∧ a ≠ b

/-- The text of a file in a directory. -/
def codeOf (content : Content) (d : Disk) (path : Path) (name : Text) : Except Failure Text := do
  content.decode (← (d.read (path.child name)).mapError .disk)

/-- The sources are the files of the names in order, with their texts. -/
theorem sources_eq_ok_iff (hdirectory : content.directoryOf d id = .ok path) :
    content.sources d id = .ok files ↔ files.map (·.name) = sourceNames d path ∧
      (∀ file ∈ files, content.codeOf d path file.name = .ok file.code) ∧
      ∀ i (h : i < files.length), files[i].primary = decide (i = 0) := by
  have hsources : content.sources d id =
      (sourceNames d path).mapM (content.codeOf d path) >>= fun codes =>
        .ok (((sourceNames d path).zip codes).mapIdx fun position part =>
          ⟨part.1, part.2, position == 0⟩) := by
    rw [sources, hdirectory]
    rfl
  rw [hsources]
  generalize sourceNames d path = names
  constructor
  · intro h
    obtain ⟨codes, hcodes, h⟩ := bind_eq_ok.1 h
    obtain rfl := Except.ok.inj h
    obtain ⟨hlength, hpairs⟩ := List.forall₂_iff_zip.1 (mapM_eq_ok_iff.1 hcodes)
    refine ⟨List.ext_getElem (by simp [hlength]) fun i h₁ h₂ => by simp, fun file hfile => ?_,
      fun i hi => by rw [List.getElem_mapIdx]; rfl⟩
    obtain ⟨i, hi, rfl⟩ := List.mem_mapIdx.1 hfile
    exact hpairs (List.getElem_mem hi)
  · rintro ⟨rfl, hcode, hprimary⟩
    have hcodes : (files.map (·.name)).mapM (content.codeOf d path) = .ok (files.map (·.code)) := by
      rw [mapM_eq_ok_iff, List.forall₂_map_left_iff, List.forall₂_map_right_iff, List.forall₂_same]
      exact hcode
    rw [hcodes, ok_bind]
    refine congrArg _ (List.ext_getElem (by simp) fun i h₁ h₂ => ?_)
    simp only [List.getElem_mapIdx, List.getElem_zip, List.getElem_map]
    exact congrArg (SourceFile.mk _ _) (hprimary i h₂).symm

end Content

end Marginalia
