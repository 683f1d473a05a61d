import Marginalia.Project.Content
import Marginalia.Proofs.Disk.Change
import Marginalia.Proofs.Result
import Marginalia.Proofs.Text.Order

/-!
# Which projects there are

The projects that are listed are those that there are, in ascending order
(`ascending_of_projects`, `mem_of_projects`), so two disks with the same projects
have the same list (`projects_congr`). Changes of files outside the content
directory take no project away and add none (`HasProject.of_changes`,
`HasProject.of_changes_to`), and if nothing in the content directory changes the
projects can be listed again (`SameDirectory.projects_eq_ok`).
-/

namespace Marginalia.Content

/-- The directory of a project is there, with metadata in it. -/
structure HasProject (content : Content) (d : Disk) (id : Text) : Prop where
  isName : Disk.IsName id
  hasDirectory : d.HasDirectory (content.directory.child id)
  isFile : d.isFile ((content.directory.child id).child metadataFile) = .ok true

/-- The location of the directory of a project. -/
def locationOf (content : Content) (d : Disk) (id : Text) : Location :=
  d.resolve content.directory ++ [id]

variable {content : Content} {d d' : Disk} {id : Text} {ids names found : List Text}
  {files : Set Location}

/-- A location is below the directory of one project at most. -/
theorem locationOf_inj {id' : Text} {l : Location} (h : content.locationOf d id <+: l)
    (h' : content.locationOf d id' <+: l) : id = id' := by
  obtain ⟨names, rfl⟩ := h
  obtain ⟨names', heq⟩ := h'
  rw [locationOf, locationOf, List.append_assoc, List.append_assoc] at heq
  exact (List.cons.inj (List.append_cancel_left heq)).1.symm

theorem isName_metadataFile : Disk.IsName metadataFile := ⟨by decide, by decide, by decide, by decide⟩

theorem resolve_directory (content : Content) (d : Disk) (h : Disk.IsName id) :
    d.resolve (content.directory.child id) = content.locationOf d id :=
  d.resolve_child content.directory h

theorem isProject_eq_true_iff : content.isProject d id = .ok true ↔
    d.HasDirectory (content.directory.child id) ∧
      d.isFile ((content.directory.child id).child metadataFile) = .ok true := by
  rw [isProject, bind_eq_ok, ← Disk.isDirectory_eq_true_iff]
  constructor
  · rintro ⟨there, hthere, h⟩
    cases there with
    | true => exact ⟨hthere, h⟩
    | false => cases h
  · exact fun ⟨hthere, h⟩ => ⟨true, hthere, h⟩

/-! ## Lists of projects -/

theorem sublist_of_projectsAmong (h : content.projectsAmong d names = .ok found) :
    found.Sublist names ∧ ∀ name, name ∈ found ↔
      name ∈ names ∧ content.isProject d name = .ok true := by
  induction names generalizing found with
  | nil =>
    obtain rfl := Except.ok.inj h
    simp
  | cons first rest ih =>
    obtain ⟨isProject, hfirst, hrest⟩ := bind_eq_ok.1 h
    obtain ⟨more, hmore, hfound⟩ := bind_eq_ok.1 hrest
    obtain rfl := Except.ok.inj hfound
    obtain ⟨hsub, hmem⟩ := ih hmore
    cases isProject with
    | true =>
      refine ⟨hsub.cons_cons first, fun name => ?_⟩
      rw [if_pos rfl, List.mem_cons, List.mem_cons, hmem]
      constructor
      · rintro (rfl | ⟨hname, hproject⟩)
        · exact ⟨.inl rfl, hfirst⟩
        · exact ⟨.inr hname, hproject⟩
      · rintro ⟨rfl | hname, hproject⟩
        · exact .inl rfl
        · exact .inr ⟨hname, hproject⟩
    | false =>
      refine ⟨hsub.cons first, fun name => ?_⟩
      rw [if_neg Bool.false_ne_true, List.mem_cons, hmem]
      constructor
      · rintro ⟨hname, hproject⟩
        exact ⟨.inr hname, hproject⟩
      · rintro ⟨rfl | hname, hproject⟩
        · rw [hfirst] at hproject
          cases hproject
        · exact ⟨hname, hproject⟩

/-- Projects are found among names if each name can be looked at. -/
theorem exists_projectsAmong_iff : (∃ found, content.projectsAmong d names = .ok found) ↔
    ∀ name ∈ names, ∃ isProject, content.isProject d name = .ok isProject := by
  induction names with
  | nil => exact ⟨fun _ name hname => absurd hname List.not_mem_nil, fun _ => ⟨[], rfl⟩⟩
  | cons first rest ih =>
    rw [List.forall_mem_cons, ← ih]
    constructor
    · rintro ⟨found, h⟩
      obtain ⟨isProject, hfirst, h⟩ := bind_eq_ok.1 h
      obtain ⟨more, hmore, -⟩ := bind_eq_ok.1 h
      exact ⟨⟨isProject, hfirst⟩, more, hmore⟩
    · rintro ⟨⟨isProject, hfirst⟩, more, hmore⟩
      exact ⟨_, bind_eq_ok.2 ⟨isProject, hfirst, bind_eq_ok.2 ⟨more, hmore, rfl⟩⟩⟩

/-- Projects are listed only if the content directory is there, and then they are
    those of the names in it. -/
theorem projects_eq_ok (h : content.projects d = .ok ids) :
    d.HasDirectory content.directory ∧ (∃ found, ids = Text.sort found ∧
      content.projectsAmong d ((d.childrenOf (d.resolve content.directory)).map (·.1)) = .ok found) ∨
    d.isDirectory content.directory = .ok false ∧ ids = [] := by
  obtain ⟨there, hthere, h⟩ := bind_eq_ok.1 h
  cases there with
  | false => exact .inr ⟨hthere, (Except.ok.inj h).symm⟩
  | true =>
    obtain ⟨found, hfound, h⟩ := bind_eq_ok.1 h
    have hdir := Disk.isDirectory_eq_true_iff.1 hthere
    exact .inl ⟨hdir, found, (Except.ok.inj h).symm, hdir.children_eq ▸ hfound⟩

theorem ascending_of_projects (ht : d.IsTree) (h : content.projects d = .ok ids) :
    Text.Ascending ids := by
  rcases projects_eq_ok h with ⟨-, found, rfl, hfound⟩ | ⟨-, rfl⟩
  · have hnodup := Disk.nodup_childrenOf ht.nodup (d.resolve content.directory)
    exact Text.ascending_sort (hnodup.sublist (sublist_of_projectsAmong hfound).1)
  · exact List.Pairwise.nil

/-- What is listed are projects, in the content directory. -/
theorem mem_projects (ht : d.IsTree) (h : content.projects d = .ok ids) (hid : id ∈ ids) :
    d.HasDirectory content.directory ∧ content.HasProject d id := by
  rcases projects_eq_ok h with ⟨hdir, found, rfl, hfound⟩ | ⟨-, rfl⟩
  · obtain ⟨hname, hproject⟩ :=
      ((sublist_of_projectsAmong hfound).2 id).1 (Text.mem_sort_iff.1 hid)
    obtain ⟨⟨_, entry⟩, hmem, rfl⟩ := List.mem_map.1 hname
    have hget := (Disk.mem_childrenOf_iff ht.nodup).1 hmem
    obtain ⟨hthere, hfile⟩ := isProject_eq_true_iff.1 hproject
    exact ⟨hdir, ht.isName _ _ hget _ (by simp), hthere, hfile⟩
  · cases hid

/-- Every project in the content directory is listed. -/
theorem mem_of_projects (ht : d.IsTree) (hdir : d.HasDirectory content.directory)
    (h : content.projects d = .ok ids) (hproject : content.HasProject d id) : id ∈ ids := by
  rcases projects_eq_ok h with ⟨-, found, rfl, hfound⟩ | ⟨hnone, -⟩
  · rw [Text.mem_sort_iff, (sublist_of_projectsAmong hfound).2]
    refine ⟨List.mem_map.2 ⟨(id, .directory), ?_, rfl⟩,
      isProject_eq_true_iff.2 ⟨hproject.hasDirectory, hproject.isFile⟩⟩
    have hthere := hproject.hasDirectory.2
    rw [content.resolve_directory d hproject.isName] at hthere
    exact (Disk.mem_childrenOf_iff ht.nodup).2 hthere
  · rw [Disk.isDirectory_eq_true_iff.2 hdir] at hnone
    cases hnone

/-- Two disks with the same projects list the same ones. -/
theorem projects_congr (ht : d.IsTree) (ht' : d'.IsTree) (hdir : d.HasDirectory content.directory)
    (hdir' : d'.HasDirectory content.directory)
    (hsame : ∀ id, content.HasProject d id ↔ content.HasProject d' id) {ids' : List Text}
    (h : content.projects d = .ok ids) (h' : content.projects d' = .ok ids') : ids = ids' := by
  refine (ascending_of_projects ht h).eq_of_mem_iff (ascending_of_projects ht' h') fun id => ?_
  constructor
  · exact fun hid => mem_of_projects ht' hdir' h' ((hsame id).1 (mem_projects ht h hid).2)
  · exact fun hid => mem_of_projects ht hdir h ((hsame id).2 (mem_projects ht' h' hid).2)

/-! ## Changes elsewhere -/

/-- The location of the metadata of a project. -/
theorem resolve_metadata (content : Content) (d : Disk) (h : Disk.IsName id) :
    d.resolve ((content.directory.child id).child metadataFile) =
      content.locationOf d id ++ [metadataFile] := by
  rw [Disk.resolve_child _ _ isName_metadataFile, content.resolve_directory d h]

theorem locationOf_congr (h : d'.working = d.working) (id : Text) :
    content.locationOf d' id = content.locationOf d id := by
  rw [locationOf, locationOf, Disk.resolve_congr h]

/-- A project whose directory is found has no null character in its name. -/
theorem HasProject.contains_null (hproject : content.HasProject d id) :
    id.contains '\x00' = false := by
  have hnull := Disk.holdsNull_of_locate hproject.hasDirectory.1
  rw [Path.holdsNull_child _ hproject.isName, Bool.or_eq_false_iff] at hnull
  exact hnull.2

/-- A project stays if its metadata is not touched. -/
theorem HasProject.of_changes (hproject : content.HasProject d id) (h : Disk.Changes files d d')
    (hfiles : content.locationOf d id ++ [metadataFile] ∉ files) : content.HasProject d' id := by
  refine ⟨hproject.isName, h.hasDirectory hproject.hasDirectory, ?_⟩
  obtain ⟨hl, hbytes⟩ := Disk.isFile_eq_true_iff.1 hproject.isFile
  rw [Disk.isFile_eq_true_iff, h.resolve,
    h.bytesAt (content.resolve_metadata d hproject.isName ▸ hfiles)]
  exact ⟨h.locate hl, hbytes⟩

/-- A project that is there on one disk is there on another whose content directory has the
    same metadata. -/
theorem HasProject.of_bytesAt (hproject : content.HasProject d' id) (ht : d.IsTree)
    (hworking : d'.working = d.working) (hdir : d.HasDirectory content.directory)
    (hbytes : d'.bytesAt (content.locationOf d id ++ [metadataFile]) =
      d.bytesAt (content.locationOf d id ++ [metadataFile])) : content.HasProject d id := by
  have hname := hproject.isName
  have hresolve := Disk.resolve_congr hworking
  obtain ⟨hl, hthere⟩ := Disk.isFile_eq_true_iff.1 hproject.isFile
  rw [hresolve, content.resolve_metadata d hname, hbytes] at hthere
  -- The metadata is on the other disk as well, so its directory is, too.
  obtain ⟨bytes, hbytes'⟩ := Option.ne_none_iff_exists'.1 hthere
  obtain ⟨modified, hget⟩ := Disk.bytesAt_eq_some_iff.1 hbytes'
  have hparent : d.get? (content.locationOf d id) = some .directory := by
    have := ht.parent _ _ hget
    rwa [List.dropLast_concat] at this
  have hdirectory : d.HasDirectory (content.directory.child id) := by
    refine ⟨(Disk.fits_of_locate hproject.hasDirectory.1 hname).locate hname hdir, ?_⟩
    rwa [content.resolve_directory d hname]
  refine ⟨hname, hdirectory, Disk.isFile_eq_true_iff.2 ⟨?_, ?_⟩⟩
  · exact (Disk.fits_of_locate hl isName_metadataFile).locate isName_metadataFile hdirectory
  · rwa [content.resolve_metadata d hname]

/-- No project is added but by its metadata. -/
theorem HasProject.of_changes_to (hproject : content.HasProject d' id) (ht : d.IsTree)
    (hdir : d.HasDirectory content.directory) (h : Disk.Changes files d d')
    (hfiles : content.locationOf d id ++ [metadataFile] ∉ files) : content.HasProject d id :=
  hproject.of_bytesAt ht h.working hdir (h.bytesAt hfiles)

/-! ## The same content directory -/

/-- The content directory is there on two disks, with the same in it. -/
structure SameDirectory (content : Content) (d d' : Disk) : Prop where
  tree : d.IsTree
  tree' : d'.IsTree
  working : d'.working = d.working
  hasDirectory : d.HasDirectory content.directory
  hasDirectory' : d'.HasDirectory content.directory
  get? : ∀ l, d.resolve content.directory <+: l → d'.get? l = d.get? l

namespace SameDirectory

theorem resolve (h : content.SameDirectory d d') (p : Path) : d'.resolve p = d.resolve p :=
  Disk.resolve_congr h.working p

theorem symm (h : content.SameDirectory d d') : content.SameDirectory d' d where
  tree := h.tree'
  tree' := h.tree
  working := h.working.symm
  hasDirectory := h.hasDirectory'
  hasDirectory' := h.hasDirectory
  get? l hl := (h.get? l (h.resolve _ ▸ hl)).symm

theorem isProject_congr (h : content.SameDirectory d d') (hname : Disk.IsName id) :
    content.isProject d' id = content.isProject d id := by
  have hlocate : d'.locate (content.directory.child id) = d.locate (content.directory.child id) := by
    rw [Disk.locate_child h.hasDirectory.1 h.hasDirectory.2 hname,
      Disk.locate_child h.hasDirectory'.1 h.hasDirectory'.2 hname, h.resolve]
  have hget : ∀ names, d'.get? (content.locationOf d id ++ names) =
      d.get? (content.locationOf d id ++ names) := fun names =>
    h.get? _ (List.append_assoc .. ▸ List.prefix_append _ _)
  have hthere : d'.isDirectory (content.directory.child id) =
      d.isDirectory (content.directory.child id) := by
    refine Disk.leadsTo_congr hlocate ?_ _
    rw [content.resolve_directory d hname]
    simpa using hget []
  rw [isProject, isProject, hthere]
  cases hdir : d.isDirectory (content.directory.child id) with
  | error e => rfl
  | ok there =>
    cases there with
    | false => rfl
    | true =>
      obtain ⟨hl, hdirectory⟩ := Disk.isDirectory_eq_true_iff.1 hdir
      obtain ⟨hl', hdirectory'⟩ := Disk.isDirectory_eq_true_iff.1 (hthere.trans hdir)
      refine Disk.leadsTo_congr ?_ ?_ _
      · rw [Disk.locate_child hl hdirectory isName_metadataFile,
          Disk.locate_child hl' hdirectory' isName_metadataFile, h.resolve]
      · rw [content.resolve_metadata d hname, hget]

/-- The same projects are listed. -/
theorem projects_eq_ok (h : content.SameDirectory d d') (hids : content.projects d = .ok ids) :
    content.projects d' = .ok ids := by
  have hthere := Disk.isDirectory_eq_true_iff.2 h.hasDirectory'
  have hchildren : d'.children content.directory = d'.childrenOf (d.resolve content.directory) := by
    rw [h.hasDirectory'.children_eq, h.resolve]
  have hfound : ∃ found, content.projectsAmong d'
      ((d'.childrenOf (d.resolve content.directory)).map (·.1)) = .ok found := by
    rw [exists_projectsAmong_iff, List.forall_mem_map]
    rintro ⟨name, entry⟩ hlisted
    have hget := (Disk.mem_childrenOf_iff h.tree'.nodup).1 hlisted
    have hmem : (name, entry) ∈ d.childrenOf (d.resolve content.directory) :=
      (Disk.mem_childrenOf_iff h.tree.nodup).2 (h.get? _ (List.prefix_append _ _) ▸ hget)
    rcases Content.projects_eq_ok hids with ⟨-, found, -, hfound⟩ | ⟨hnone, -⟩
    · rw [h.isProject_congr (h.tree'.isName _ _ hget name (by simp))]
      exact exists_projectsAmong_iff.1 ⟨found, hfound⟩ name (List.mem_map_of_mem hmem)
    · rw [Disk.isDirectory_eq_true_iff.2 h.hasDirectory] at hnone
      cases hnone
  obtain ⟨found, hfound⟩ := hfound
  have hids' : content.projects d' = .ok (Text.sort found) := by
    rw [projects, hthere, ok_bind, if_pos rfl, hchildren, hfound]
    rfl
  have hsame : ids = Text.sort found :=
    projects_congr h.tree h.tree' h.hasDirectory h.hasDirectory' (fun id => ?_) hids hids'
  · rw [hids', hsame]
  · have hmetadata : d'.bytesAt (content.locationOf d id ++ [metadataFile]) =
        d.bytesAt (content.locationOf d id ++ [metadataFile]) := by
      rw [Disk.bytesAt, Disk.bytesAt, h.get? _ (List.append_assoc .. ▸ List.prefix_append _ _)]
    constructor
    · intro hproject
      refine hproject.of_bytesAt h.tree' h.working.symm h.hasDirectory' ?_
      rw [locationOf, h.resolve]
      exact hmetadata.symm
    · exact fun hproject => hproject.of_bytesAt h.tree h.working h.hasDirectory hmetadata

theorem trans {d'' : Disk} (h : content.SameDirectory d d') (h' : content.SameDirectory d' d'') :
    content.SameDirectory d d'' where
  tree := h.tree
  tree' := h'.tree'
  working := h'.working.trans h.working
  hasDirectory := h.hasDirectory
  hasDirectory' := h'.hasDirectory'
  get? l hl := (h'.get? l (h.resolve _ ▸ hl)).trans (h.get? l hl)

/-- The directories of a project are nested as deeply. -/
theorem depthBelow_eq (h : content.SameDirectory d d') (hproject : content.HasProject d id)
    (hproject' : content.HasProject d' id) :
    d'.depthBelow (content.directory.child id) = d.depthBelow (content.directory.child id) := by
  refine Disk.depthBelow_congr h.tree h.tree' hproject.hasDirectory hproject'.hasDirectory
    (h.resolve _) fun names => h.get? _ ?_
  rw [content.resolve_directory d hproject.isName, locationOf, List.append_assoc]
  exact List.prefix_append _ _

end SameDirectory

end Marginalia.Content
