import Marginalia.Proofs.Project.Locality
import Marginalia.Proofs.Site.Sample

/-!
# Which ids lead to a project

An id leads to a project exactly if there is one of that name and the id holds no
backslash (`directoryOf_eq_ok_iff`); those are the ids that are listed
(`mem_projects_iff`). It then leads to a directory directly in the content directory
(`IsOwnDirectory`), and what is asked of it is read from the files below that
directory. Any other id is refused as wrong content and nothing is read of it
(`ids_lead_to_own_directories`), unless the disk does not answer since the path that
the id makes is too long (`Disk.IsLong`, `long_id_has_no_answer`).
-/

namespace Marginalia.Content

variable {content : Content} {d : Disk} {id : Text} {ids names : List Text} {path : Path}
  {failure : Failure} {e : Disk.Error}

/-! ## Ids that are listed -/

theorem isInvalidId_eq_false_iff : isInvalidId id = false ↔ Disk.IsName id ∧ '\\' ∉ id := by
  constructor
  · intro h
    refine ⟨isName_of_isInvalidId h, fun hmem => ?_⟩
    simp [isInvalidId, hmem] at h
  · rintro ⟨hname, hmem⟩
    simp [isInvalidId, hmem, hname.ne_nil, hname.ne_point, hname.ne_up, hname.not_mem]

/-- An id is accepted if there is a project of that name, without a backslash in it. -/
theorem directoryOf_eq_ok_iff : content.directoryOf d id = .ok path ↔
    content.HasProject d id ∧ '\\' ∉ id ∧ path = content.directory.child id := by
  constructor
  · intro h
    have hproject := hasProject_of_directoryOf h
    refine ⟨hproject, fun hmem => ?_, SameProject.directoryOf_eq_ok hproject h⟩
    have hinvalid : isInvalidId id = true := by simp [isInvalidId, hmem]
    rw [SameProject.directoryOf_eq hproject, if_pos hinvalid] at h
    cases h
  · rintro ⟨hproject, hmem, rfl⟩
    have hvalid := isInvalidId_eq_false_iff.2 ⟨hproject.isName, hmem⟩
    rw [SameProject.directoryOf_eq hproject, hvalid]
    rfl

theorem exists_directoryOf_iff : (∃ path, content.directoryOf d id = .ok path) ↔
    content.HasProject d id ∧ '\\' ∉ id := by
  simp only [directoryOf_eq_ok_iff, exists_and_left, exists_eq, and_true]

/-- The ids that are listed are those of the projects that there are. -/
theorem mem_projects_iff (ht : d.IsTree) (h : content.projects d = .ok ids) :
    id ∈ ids ↔ content.HasProject d id :=
  ⟨fun hid => (mem_projects ht h hid).2, fun hproject =>
    mem_of_projects ht (hproject.hasDirectory.of_child hproject.isName) h hproject⟩

theorem isLong_of_isProject (h : content.isProject d id = .error e) : Disk.IsLong e.path := by
  rcases bind_eq_error.1 h with h | ⟨there, -, h⟩
  · exact Disk.isLong_of_leadsTo h
  · cases there with
    | false => cases h
    | true => exact Disk.isLong_of_leadsTo h

theorem isLong_of_projectsAmong (h : content.projectsAmong d names = .error e) :
    Disk.IsLong e.path := by
  induction names with
  | nil => cases h
  | cons first rest ih =>
    rcases bind_eq_error.1 h with hfirst | ⟨found, -, h⟩
    · exact isLong_of_isProject hfirst
    · rcases bind_eq_error.1 h with hrest | ⟨more, -, h⟩
      · exact ih hrest
      · cases h

/-- Projects are listed unless a path is too long. -/
theorem isLong_of_projects (h : content.projects d = .error e) : Disk.IsLong e.path := by
  rcases bind_eq_error.1 h with h | ⟨there, -, h⟩
  · exact Disk.isLong_of_leadsTo h
  · cases there with
    | false => cases h
    | true =>
      rcases bind_eq_error.1 h with hamong | ⟨found, -, h⟩
      · exact isLong_of_projectsAmong hamong
      · cases h

/-! ## What is read of an id -/

/-- The path of the file that tells whether there is a project of that id. -/
def metadataPath (content : Content) (id : Text) : Path :=
  (content.directory.child id).child metadataFile

/-- What an id is refused with that leads to no project. -/
def refusal (content : Content) (id : Text) : Error where
  problem := if isInvalidId id then .invalidId id else .unknownProject id
  path := content.directory.child id

theorem directoryOf_eq_error (h : content.directoryOf d id = .error failure) :
    failure = .invalid (content.refusal id) ∨
      failure = .disk ⟨.nameTooLong, content.metadataPath id⟩ ∧
        Disk.IsLong (content.metadataPath id) := by
  rw [refusal]
  rw [directoryOf] at h
  split at h
  · rename_i hinvalid
    rw [if_pos hinvalid]
    exact .inl (Except.error.inj h).symm
  · rename_i hvalid
    rw [if_neg hvalid]
    rcases bind_eq_error.1 h with hasked | ⟨there, -, h⟩
    · obtain ⟨e, hfile, rfl⟩ := mapError_eq_error.1 hasked
      obtain ⟨rfl, hlong⟩ := Disk.leadsTo_eq_error hfile
      exact .inr ⟨rfl, hlong⟩
    · cases there with
      | true => cases h
      | false => exact .inl (Except.error.inj h).symm

/-- Nothing is read of an id that is refused. -/
theorem asked_of_directoryOf_eq_error (h : content.directoryOf d id = .error failure) :
    content.project d id = .error failure ∧ content.writeUp d id = .error failure ∧
      content.sources d id = .error failure := by
  rw [project, writeUp, sources, h]
  exact ⟨rfl, rfl, rfl⟩

/-- The directory that an id leads to is its own: the one of that name directly in the
    content directory, and all that is asked of the id is read from the files below it. -/
structure IsOwnDirectory (content : Content) (d : Disk) (id : Text) (path : Path) : Prop where
  parent : path.parent = content.directory
  name : path.name = id
  mem : (id, .directory) ∈ d.children content.directory
  resolve : d.resolve path = d.resolve content.directory ++ [id]
  /-- On a disk with the same files below the directory, whatever else it holds, the answers
      are the same. -/
  confined : ∀ d' : Disk, d'.IsTree → d'.working = d.working → d'.HasDirectory content.directory →
    d.SameFiles d' (d.resolve path) → content.project d' id = content.project d id ∧
      content.writeUp d' id = content.writeUp d id ∧ content.sources d' id = content.sources d id

theorem isOwnDirectory_of_directoryOf (ht : d.IsTree) (h : content.directoryOf d id = .ok path) :
    content.IsOwnDirectory d id path := by
  obtain ⟨hproject, -, rfl⟩ := directoryOf_eq_ok_iff.1 h
  have hname := hproject.isName
  have hthere := hproject.hasDirectory.2
  have hresolve := content.resolve_directory d hname
  rw [hresolve] at hthere
  refine ⟨Path.parent_child _ hname, ?_, ?_, hresolve, fun d' ht' hworking hdir hfiles => ?_⟩
  · rw [Path.name, Path.parts_child _ hname, List.getLast?_concat]
    rfl
  · rw [(hproject.hasDirectory.of_child hname).children_eq]
    exact (Disk.mem_childrenOf_iff ht.nodup).2 hthere
  · have hsame := hproject.same_of_sameFiles ht ht' hworking hdir (hresolve ▸ hfiles)
    exact ⟨hsame.project_congr, hsame.writeUp_congr, hsame.sources_congr⟩

/-- An id is accepted exactly if it is listed and holds no backslash, and then leads to its
    own directory. An id that is refused is told to be wrong content, and nothing is read of
    it. A path that is too long is the one thing that stands in the way of the list, and of
    the answer to an id. -/
theorem ids_lead_to_own_directories (ht : d.IsTree) (id : Text) :
    (∀ ids, content.projects d = .ok ids →
      ((∃ path, content.directoryOf d id = .ok path) ↔ id ∈ ids ∧ '\\' ∉ id)) ∧
    (∀ e, content.projects d = .error e → Disk.IsLong e.path ∧
      ((∃ path, content.directoryOf d id = .ok path) ↔ content.HasProject d id ∧ '\\' ∉ id)) ∧
    (∀ path, content.directoryOf d id = .ok path → content.IsOwnDirectory d id path) ∧
    ∀ failure, content.directoryOf d id = .error failure →
      (content.project d id = .error failure ∧ content.writeUp d id = .error failure ∧
        content.sources d id = .error failure) ∧
      (failure = .invalid (content.refusal id) ∨
        failure = .disk ⟨.nameTooLong, content.metadataPath id⟩ ∧
          Disk.IsLong (content.metadataPath id)) := by
  refine ⟨fun ids hids => ?_, fun e he => ⟨isLong_of_projects he, exists_directoryOf_iff⟩,
    fun path => isOwnDirectory_of_directoryOf ht,
    fun failure h => ⟨asked_of_directoryOf_eq_error h, directoryOf_eq_error h⟩⟩
  rw [mem_projects_iff ht hids, exists_directoryOf_iff]

/-- The content of the sample site. -/
def sample : Content := (Site.sample "/out").content

/-- A disk with two projects, of which one has a backslash in its name, a directory without
    metadata beside them, and metadata in the directory that they are in and above it. -/
def shelf : Disk := .ofFiles [("/content/a\\b/project.json", "\x7b\"name\": \"AB\"\x7d"),
  ("/content/a/project.json", "\x7b\"name\": \"A\"\x7d"), ("/content/drafts/a.ino", "int a;\n"),
  ("/content/project.json", "\x7b\x7d"), ("/project.json", "\x7b\x7d")]

/-- A project is accepted. One with a backslash in its name is not, and neither is the way up,
    where there is metadata as well. -/
theorem ids_lead_to_own_directories_shelf : shelf.IsTree ∧
    sample.IsOwnDirectory shelf "a".toList (sample.directory.child "a".toList) ∧
    (¬∃ path, sample.directoryOf shelf "a\\b".toList = .ok path) ∧
    sample.sources shelf "..".toList = .error (.invalid (sample.refusal "..".toList)) := by
  have ht : shelf.IsTree := by decide +kernel
  have hfound : sample.directoryOf shelf "a".toList = .ok (sample.directory.child "a".toList) :=
    toOption_eq_some.1 (by decide +kernel)
  have hup : sample.directoryOf shelf "..".toList =
      .error (.invalid (sample.refusal "..".toList)) := rfl
  have hthere : shelf.isDirectory sample.directory = .ok true :=
    toOption_eq_some.1 (by decide +kernel)
  have hamong : sample.projectsAmong shelf ((shelf.children sample.directory).map (·.1)) =
      .ok ["a".toList, "a\\b".toList] := toOption_eq_some.1 (by decide +kernel)
  have hids : sample.projects shelf = .ok (Text.sort ["a".toList, "a\\b".toList]) := by
    rw [projects, hthere, ok_bind, if_pos rfl, hamong]
    rfl
  refine ⟨ht, (ids_lead_to_own_directories ht _).2.2.1 _ hfound, fun h => ?_,
    ((ids_lead_to_own_directories ht _).2.2.2 _ hup).1.2.2⟩
  exact (((ids_lead_to_own_directories ht _).1 _ hids).1 h).2 (by decide)

/-- An id of so many characters that no directory can have it as its name. -/
def longId : Text := List.replicate 256 'n'

/-- An id that is not listed is not told to be wrong content if it is too long. -/
theorem long_id_has_no_answer : Site.unbuilt.IsTree ∧
    sample.projects Site.unbuilt = .ok ["a".toList] ∧ longId ∉ ["a".toList] ∧
    ¬∃ e, sample.directoryOf Site.unbuilt longId = .error (.invalid e) := by
  have hthere : Site.unbuilt.isDirectory sample.directory = .ok true :=
    toOption_eq_some.1 (by decide +kernel)
  have hamong : sample.projectsAmong Site.unbuilt
      ((Site.unbuilt.children sample.directory).map (·.1)) = .ok ["a".toList] :=
    toOption_eq_some.1 (by decide +kernel)
  have hids : sample.projects Site.unbuilt = .ok ["a".toList] := by
    rw [projects, hthere, ok_bind, if_pos rfl, hamong, ok_bind, Text.sort, List.mergeSort_singleton]
    rfl
  have hlong : sample.directoryOf Site.unbuilt longId =
      .error (.disk ⟨.nameTooLong, sample.metadataPath longId⟩) := by
    decide +kernel
  refine ⟨by decide +kernel, hids, by decide +kernel, ?_⟩
  rintro ⟨e, he⟩
  rw [hlong] at he
  cases he

end Marginalia.Content
