import Marginalia.Proofs.Project.Limits
import Marginalia.Proofs.Project.Listing
import Marginalia.Proofs.Project.Source

/-!
# What a project depends on

All that is read of a project is read from the files below its directory: on two
disks with the same files there (`SameProject`) its metadata, its write-up and its
sources are the same (`SameProject.project`, `SameProject.writeUp`,
`SameProject.sources`), whatever else the disks hold and in whatever order they
list it. A change of other files leaves the project the same
(`HasProject.same_of_changes`).
-/

namespace Marginalia

/-- Two disks hold the same files below a location. -/
def Disk.SameFiles (d d' : Disk) (l : Location) : Prop :=
  ∀ names content modified, d.get? (l ++ names) = some (.file content modified) ↔
    d'.get? (l ++ names) = some (.file content modified)

theorem Disk.SameFiles.symm {d d' : Disk} {l : Location} (h : d.SameFiles d' l) :
    d'.SameFiles d l := fun names content modified => (h names content modified).symm

theorem Disk.Changes.sameFiles {d d' : Disk} {files : Set Location} {l : Location}
    (h : Disk.Changes files d d') (hfiles : ∀ l' ∈ files, ¬l <+: l') : d.SameFiles d' l :=
  fun names content modified =>
    (h.file _ (fun hmem => hfiles _ hmem (List.prefix_append l names)) content modified).symm

namespace Content

/-- A project that is on two disks, with the same files below its directory. -/
structure SameProject (content : Content) (d d' : Disk) (id : Text) : Prop where
  tree : d.IsTree
  tree' : d'.IsTree
  working : d'.working = d.working
  project : content.HasProject d id
  project' : content.HasProject d' id
  files : d.SameFiles d' (content.locationOf d id)

variable {content : Content} {d d' : Disk} {id name : Text} {files : Set Location}

/-- A project is the same after a change of other files. -/
theorem HasProject.same_of_changes (hproject : content.HasProject d id) (ht : d.IsTree)
    (ht' : d'.IsTree) (h : Disk.Changes files d d')
    (hfiles : ∀ l ∈ files, ¬content.locationOf d id <+: l) : content.SameProject d d' id where
  tree := ht
  tree' := ht'
  working := h.working
  project := hproject
  project' := hproject.of_changes h fun hmem => hfiles _ hmem (List.prefix_append _ _)
  files := h.sameFiles hfiles

/-- A project is on all disks with the same files below its directory. -/
theorem HasProject.same_of_sameFiles (hproject : content.HasProject d id) (ht : d.IsTree)
    (ht' : d'.IsTree) (hworking : d'.working = d.working) (hdir : d'.HasDirectory content.directory)
    (h : d.SameFiles d' (content.locationOf d id)) : content.SameProject d d' id := by
  have hbytes : d.bytesAt (content.locationOf d id ++ [metadataFile]) =
      d'.bytesAt (content.locationOf d id ++ [metadataFile]) := by
    refine Option.ext fun bytes => ?_
    rw [Disk.bytesAt_eq_some_iff, Disk.bytesAt_eq_some_iff]
    exact exists_congr fun modified => h [metadataFile] bytes modified
  -- The metadata is one of these files, so the project is there on the other disk, too.
  rw [← locationOf_congr hworking] at hbytes
  exact ⟨ht, ht', hworking, hproject, hproject.of_bytesAt ht' hworking.symm hdir hbytes, h⟩

/-- An id that leads nowhere else is a name. -/
theorem isName_of_isInvalidId (h : isInvalidId id = false) : Disk.IsName id := by
  simp only [isInvalidId, Bool.or_eq_false_iff, List.isEmpty_eq_false_iff,
    beq_eq_false_iff_ne] at h
  obtain ⟨⟨⟨⟨hne, hslash⟩, -⟩, hpoint⟩, hup⟩ := h
  exact ⟨hne, hpoint, hup, fun hmem => Bool.eq_false_iff.1 hslash (List.contains_iff_mem.2 hmem)⟩

/-- Where the directory of an id is found, there is a project. -/
theorem hasProject_of_directoryOf {path : Path} (h : content.directoryOf d id = .ok path) :
    content.HasProject d id := by
  rw [directoryOf] at h
  split at h
  · cases h
  rename_i hvalid
  obtain ⟨there, hthere, h⟩ := bind_eq_ok.1 h
  cases there with
  | false => cases h
  | true =>
    have hfile := mapError_eq_ok.1 hthere
    obtain ⟨hlocate, -⟩ := Disk.isFile_eq_true_iff.1 hfile
    exact ⟨isName_of_isInvalidId (Bool.eq_false_iff.2 hvalid),
      Disk.hasDirectory_of_locate_child hlocate isName_metadataFile, hfile⟩

namespace SameProject

theorem resolve (h : content.SameProject d d' id) (p : Path) : d'.resolve p = d.resolve p :=
  Disk.resolve_congr h.working p

theorem locationOf (h : content.SameProject d d' id) :
    content.locationOf d' id = content.locationOf d id :=
  locationOf_congr h.working id

theorem symm (h : content.SameProject d d' id) : content.SameProject d' d id where
  tree := h.tree'
  tree' := h.tree
  working := h.working.symm
  project := h.project'
  project' := h.project
  files := h.locationOf ▸ h.files.symm

theorem trans {d'' : Disk} (h : content.SameProject d d' id) (h' : content.SameProject d' d'' id) :
    content.SameProject d d'' id where
  tree := h.tree
  tree' := h'.tree'
  working := h'.working.trans h.working
  project := h.project
  project' := h'.project'
  files names bytes modified :=
    (h.files names bytes modified).trans (h.locationOf ▸ h'.files names bytes modified)

/-! ## Single files -/

/-- Where the path to a name in the directory of a project leads. -/
theorem locate_child (hproject : content.HasProject d id) (hname : Disk.IsName name) :
    d.locate ((content.directory.child id).child name) =
      Disk.placeOf ((content.directory.child id).child name) (content.locationOf d id) name := by
  have hdir := hproject.hasDirectory
  rw [Disk.locate_child hdir.1 hdir.2 hname, content.resolve_directory d hproject.isName]

theorem locate_congr (h : content.SameProject d d' id) (hname : Disk.IsName name) :
    d'.locate ((content.directory.child id).child name) =
      d.locate ((content.directory.child id).child name) := by
  rw [locate_child h.project hname, locate_child h.project' hname, h.locationOf]

theorem resolve_child (hproject : content.HasProject d id) (hname : Disk.IsName name) :
    d.resolve ((content.directory.child id).child name) = content.locationOf d id ++ [name] := by
  rw [Disk.resolve_child _ _ hname, content.resolve_directory d hproject.isName]

theorem bytesAt_congr (h : content.SameProject d d' id) (names : List Text) :
    d'.bytesAt (content.locationOf d id ++ names) = d.bytesAt (content.locationOf d id ++ names) := by
  refine Option.ext fun bytes => ?_
  rw [Disk.bytesAt_eq_some_iff, Disk.bytesAt_eq_some_iff]
  exact exists_congr fun modified => (h.files names bytes modified).symm

theorem isFile_congr (h : content.SameProject d d' id) (hname : Disk.IsName name) :
    d'.isFile ((content.directory.child id).child name) =
      d.isFile ((content.directory.child id).child name) := by
  have hlocate := h.locate_congr hname
  cases hl : d.locate ((content.directory.child id).child name) with
  | error cause =>
    rw [hl] at hlocate
    rw [Disk.isFile_of_locate_error hl, Disk.isFile_of_locate_error hlocate]
  | ok l =>
    rw [hl] at hlocate
    rw [Disk.isFile_of_locate hl, Disk.isFile_of_locate hlocate, Disk.locate_eq_ok hl,
      resolve_child h.project hname, h.bytesAt_congr]

/-- A file in the directory of a project is read the same. -/
theorem read_congr (h : content.SameProject d d' id) (hname : Disk.IsName name)
    (hfile : d.bytesAt (content.locationOf d id ++ [name]) ≠ none) :
    d'.read ((content.directory.child id).child name) =
      d.read ((content.directory.child id).child name) := by
  have hlocate := h.locate_congr hname
  cases hl : d.locate ((content.directory.child id).child name) with
  | error cause =>
    rw [hl] at hlocate
    rw [Disk.read_of_locate_error hl, Disk.read_of_locate_error hlocate]
  | ok l =>
    obtain rfl := Disk.locate_eq_ok hl
    rw [hl] at hlocate
    obtain ⟨bytes, hbytes⟩ := Option.ne_none_iff_exists'.1 hfile
    rw [← resolve_child h.project hname] at hbytes
    have hbytes' : d'.bytesAt (d'.resolve ((content.directory.child id).child name)) = some bytes := by
      rw [← hbytes, h.resolve, resolve_child h.project hname, h.bytesAt_congr]
    rw [Disk.read_eq_ok_iff.2 ⟨hl, hbytes⟩,
      Disk.read_eq_ok_iff.2 ⟨by rw [hlocate, h.resolve], hbytes'⟩]

/-! ## Metadata -/

/-- The directory of a project, unless its name is no id. -/
theorem directoryOf_eq (hproject : content.HasProject d id) :
    content.directoryOf d id =
      if isInvalidId id then .error (.invalid ⟨.invalidId id, content.directory.child id⟩)
      else .ok (content.directory.child id) := by
  rw [directoryOf, hproject.isFile]
  split <;> rfl

theorem directoryOf_congr (h : content.SameProject d d' id) :
    content.directoryOf d' id = content.directoryOf d id := by
  rw [directoryOf_eq h.project, directoryOf_eq h.project']

theorem directoryOf_eq_ok {path : Path} (hproject : content.HasProject d id)
    (hpath : content.directoryOf d id = .ok path) : path = content.directory.child id := by
  rw [directoryOf_eq hproject] at hpath
  split at hpath
  · cases hpath
  · exact (Except.ok.inj hpath).symm

theorem lastChange_congr (h : content.SameProject d d' id) :
    lastChange d' (content.directory.child id) = lastChange d (content.directory.child id) := by
  have hbelow : ∀ {d : Disk}, content.HasProject d id →
      d.changesBelow (content.directory.child id) =
        (d.filesBelow (content.locationOf d id)).map (·.2.2) := fun hproject => by
    rw [Disk.changesBelow, hproject.hasDirectory.1, content.resolve_directory _ hproject.isName]
  have hmem : ∀ time, time ∈ d'.changesBelow (content.directory.child id) ↔
      time ∈ d.changesBelow (content.directory.child id) := by
    intro time
    rw [hbelow h.project, hbelow h.project', h.locationOf, List.mem_map, List.mem_map]
    refine exists_congr fun ⟨names, bytes, modified⟩ => and_congr_left fun _ => ?_
    rw [Disk.mem_filesBelow_iff h.tree.nodup, Disk.mem_filesBelow_iff h.tree'.nodup]
    exact and_congr_right fun _ => (h.files names bytes modified).symm
  have hmax : (d'.changesBelow (content.directory.child id)).max? =
      (d.changesBelow (content.directory.child id)).max? := by
    ext time
    simp only [List.max?_eq_some_iff, hmem]
  rw [lastChange, lastChange, hmax]

/-- The metadata is read the same, within limits if the directories are nested as deeply. -/
theorem project_congr_of_depth {limits : Limits} (h : content.SameProject d d' id)
    (hdepth : limits.directories ≠ none →
      d'.depthBelow (content.directory.child id) = d.depthBelow (content.directory.child id)) :
    content.project d' id limits = content.project d id limits := by
  rw [Content.project, Content.project, h.directoryOf_congr]
  cases hdir : content.directoryOf d id with
  | error failure => rfl
  | ok path =>
    obtain rfl := directoryOf_eq_ok h.project hdir
    have hfile := (Disk.isFile_eq_true_iff.1 h.project.isFile).2
    rw [resolve_child h.project isName_metadataFile] at hfile
    have hread := h.read_congr isName_metadataFile hfile
    rw [ok_bind, ok_bind]
    dsimp only
    rw [hread, h.lastChange_congr, goThrough_congr hdepth]

/-- The metadata is read the same. -/
theorem project_congr (h : content.SameProject d d' id) :
    content.project d' id = content.project d id :=
  h.project_congr_of_depth fun hlimit => absurd rfl hlimit

/-- The metadata is read the same where directories may be nested at will. -/
theorem project_congr_lax (h : content.SameProject d d' id) (limits : Limits) :
    content.project d' id limits.lax = content.project d id limits.lax :=
  h.project_congr_of_depth fun hlimit => absurd rfl hlimit

end SameProject

/-- A project is read as it is where directories may be nested at will, if they may be nested
    as deeply as they are. -/
theorem project_eq_lax {limits : Limits}
    (h : limits.Admits (d.depthBelow (content.directory.child id))) :
    content.project d id limits = content.project d id limits.lax := by
  rw [project, project]
  cases hpath : content.directoryOf d id with
  | error failure => rfl
  | ok path =>
    obtain rfl := SameProject.directoryOf_eq_ok (hasProject_of_directoryOf hpath) hpath
    rw [ok_bind, ok_bind]
    dsimp only
    rw [goThrough_eq_ok_iff.2 h]
    rfl

theorem project_eq_ok_iff_lax {limits : Limits} {p : Project} :
    content.project d id limits = .ok p ↔ content.project d id limits.lax = .ok p ∧
      limits.Admits (d.depthBelow (content.directory.child id)) := by
  constructor
  · intro h
    refine ⟨(content.project_lax d id limits).eq_ok h, ?_⟩
    obtain ⟨path, hpath, h⟩ := bind_eq_ok.1 h
    obtain rfl := SameProject.directoryOf_eq_ok (hasProject_of_directoryOf hpath) hpath
    obtain ⟨bytes, -, h⟩ := bind_eq_ok.1 h
    obtain ⟨json, -, h⟩ := bind_eq_ok.1 h
    obtain ⟨read, -, h⟩ := bind_eq_ok.1 h
    obtain ⟨_, hthrough, -⟩ := bind_eq_ok.1 h
    exact goThrough_eq_ok_iff.1 hthrough
  · rintro ⟨h, hdepth⟩
    exact (project_eq_lax hdepth).trans h

namespace SameProject

/-! ## Write-ups and sources -/

theorem isName_writeUpFile : Disk.IsName writeUpFile := ⟨by decide, by decide, by decide, by decide⟩

/-- The write-up is read the same. -/
theorem writeUp_congr (h : content.SameProject d d' id) :
    content.writeUp d' id = content.writeUp d id := by
  rw [writeUp, writeUp, h.directoryOf_congr]
  cases hdir : content.directoryOf d id with
  | error failure => rfl
  | ok path =>
    obtain rfl := directoryOf_eq_ok h.project hdir
    rw [ok_bind, ok_bind]
    dsimp only
    rw [h.isFile_congr isName_writeUpFile]
    cases hfile : d.isFile ((content.directory.child id).child writeUpFile) with
    | error e => rfl
    | ok isFile =>
      cases isFile with
      | false => rfl
      | true =>
        have hbytes := (Disk.isFile_eq_true_iff.1 hfile).2
        rw [resolve_child h.project isName_writeUpFile] at hbytes
        rw [h.read_congr isName_writeUpFile hbytes]

/-- The sources are read the same. -/
theorem sources_congr (h : content.SameProject d d' id) :
    content.sources d' id = content.sources d id := by
  rw [sources, sources, h.directoryOf_congr]
  cases hdir : content.directoryOf d id with
  | error failure => rfl
  | ok path =>
    obtain rfl := directoryOf_eq_ok h.project hdir
    have hlocate : d.locate (content.directory.child id) = .ok (content.locationOf d id) := by
      rw [h.project.hasDirectory.1, content.resolve_directory d h.project.isName]
    have hlocate' : d'.locate (content.directory.child id) = .ok (content.locationOf d id) := by
      rw [h.project'.hasDirectory.1, content.resolve_directory d' h.project.isName, h.locationOf]
    have hnames : sourceNames d' (content.directory.child id) =
        sourceNames d (content.directory.child id) :=
      sourceNames_congr h.tree h.tree' hlocate hlocate' fun name => h.bytesAt_congr [name]
    have hcodes : ∀ name ∈ sourceNames d (content.directory.child id),
        ((d'.read ((content.directory.child id).child name)).mapError Failure.disk >>=
          content.decode) =
        ((d.read ((content.directory.child id).child name)).mapError Failure.disk >>=
          content.decode) := by
      intro name hmem
      obtain ⟨hfile, -⟩ := (mem_sourceNames_iff h.tree hlocate).1 hmem
      obtain ⟨bytes, hbytes⟩ := Option.ne_none_iff_exists'.1 hfile
      obtain ⟨modified, hget⟩ := Disk.bytesAt_eq_some_iff.1 hbytes
      rw [h.read_congr (h.tree.isName _ _ hget name (by simp)) hfile]
    rw [ok_bind, ok_bind]
    dsimp only
    rw [hnames, mapM_congr hcodes]

end SameProject

end Content

end Marginalia
