import Marginalia.Proofs.Project.Locality
import Marginalia.Proofs.Site.Writing

/-!
# Output and content

A site whose output directory is apart from its content directory (`IsApart`): what
is written there are no files of any project, so projects are read the same before
and after (`IsApart.sameProject`). The files of the pages and of the index all
differ (`resolve_pagePath_inj`, `resolve_pagePath_ne_indexPath`).

A path may go up from a directory that is missing. Such a path leads nowhere, until
the directory is made. `LeadsToOutput` says that this is not so for the output
directory; then a page that is deleted is gone (`bytesAt_pagePath_of_delete`).
`LeadsToContent` says so for the content directory.
-/

namespace Marginalia.Site

open Disk (Changes IsName)

variable {site : Site} {d d' : Disk} {id id' : Text} {l : Location} {files : Set Location}

/-! ## Files of the output -/

theorem isName_pagesDir : IsName "projects".toList :=
  ⟨by decide, by decide, by decide, by decide⟩

theorem isName_indexFile : IsName "index.json".toList :=
  ⟨by decide, by decide, by decide, by decide⟩

theorem isName_pageFile (h : IsName id) : IsName (id ++ ".json".toList) := by
  refine ⟨by simp, fun heq => ?_, fun heq => ?_, fun hmem => ?_⟩
  · simpa using congrArg List.length heq
  · simpa [Disk.up] using congrArg List.length heq
  · rcases List.mem_append.1 hmem with hmem | hmem
    · exact h.not_mem hmem
    · revert hmem
      decide

theorem resolve_pagesDir (site : Site) (d : Disk) :
    d.resolve site.pagesDir = d.resolve site.settings.outputDir ++ ["projects".toList] :=
  d.resolve_child _ isName_pagesDir

/-- The location of the page of a project. -/
theorem resolve_pagePath (site : Site) (d : Disk) (h : IsName id) : d.resolve (site.pagePath id) =
    d.resolve site.settings.outputDir ++ ["projects".toList, id ++ ".json".toList] := by
  rw [pagePath, d.resolve_child _ (isName_pageFile h), resolve_pagesDir, List.append_assoc]
  rfl

/-- The location of the index. -/
theorem resolve_indexPath (site : Site) (d : Disk) : d.resolve site.indexPath =
    d.resolve site.settings.outputDir ++ ["index.json".toList] :=
  d.resolve_child _ isName_indexFile

theorem parent_pagePath (site : Site) (h : IsName id) : (site.pagePath id).parent = site.pagesDir :=
  Path.parent_child _ (isName_pageFile h)

theorem parent_indexPath (site : Site) : site.indexPath.parent = site.settings.outputDir :=
  Path.parent_child _ isName_indexFile

/-- No page is where the index is. -/
theorem resolve_pagePath_ne_indexPath (h : IsName id) :
    d.resolve (site.pagePath id) ≠ d.resolve site.indexPath := by
  rw [resolve_pagePath site d h, resolve_indexPath]
  intro heq
  simpa using congrArg List.length (List.append_cancel_left heq)

/-- No two pages are in one place. -/
theorem resolve_pagePath_inj (h : IsName id) (h' : IsName id') :
    d.resolve (site.pagePath id) = d.resolve (site.pagePath id') ↔ id = id' := by
  refine ⟨fun heq => ?_, congrArg fun id => d.resolve (site.pagePath id)⟩
  rw [resolve_pagePath site d h, resolve_pagePath site d h'] at heq
  have hpair := List.append_cancel_left heq
  rw [List.cons.injEq, List.cons.injEq] at hpair
  exact List.append_cancel_right hpair.2.1

/-! ## Apart from the content -/

/-- The output directory of a site is apart from its content directory. -/
structure IsApart (site : Site) (d : Disk) : Prop where
  tree : d.IsTree
  notBelow : ¬d.resolve site.settings.contentDir <+: d.resolve site.settings.outputDir
  notAround : ¬d.resolve site.settings.outputDir <+: d.resolve site.settings.contentDir

instance (site : Site) (d : Disk) : Decidable (site.IsApart d) :=
  decidable_of_iff (d.IsTree ∧
      ¬d.resolve site.settings.contentDir <+: d.resolve site.settings.outputDir ∧
      ¬d.resolve site.settings.outputDir <+: d.resolve site.settings.contentDir)
    ⟨fun ⟨htree, hbelow, haround⟩ => ⟨htree, hbelow, haround⟩,
      fun h => ⟨h.tree, h.notBelow, h.notAround⟩⟩

/-- The locations outside the content directory. -/
def elsewhere (site : Site) (d : Disk) : Set Location :=
  {l | ¬d.resolve site.settings.contentDir <+: l}

/-- Changes outside the content directory. -/
abbrev ChangesElsewhere (site : Site) (d d' : Disk) : Prop := Changes (site.elsewhere d) d d'

namespace IsApart

/-- What is in the output directory is outside the content directory. -/
theorem mem_elsewhere (h : site.IsApart d) (hl : d.resolve site.settings.outputDir <+: l) :
    l ∈ site.elsewhere d := fun hcontent =>
  (List.prefix_or_prefix_of_prefix hcontent hl).elim h.notBelow h.notAround

theorem pagePath_mem_elsewhere (h : site.IsApart d) (hid : IsName id) :
    d.resolve (site.pagePath id) ∈ site.elsewhere d :=
  h.mem_elsewhere (site.resolve_pagePath d hid ▸ List.prefix_append _ _)

theorem indexPath_mem_elsewhere (h : site.IsApart d) :
    d.resolve site.indexPath ∈ site.elsewhere d :=
  h.mem_elsewhere (site.resolve_indexPath d ▸ List.prefix_append _ _)

/-- The output stays apart from the content, whatever changes. -/
theorem of_changes (h : site.IsApart d) (hchanges : Changes files d d') (ht : d'.IsTree) :
    site.IsApart d' where
  tree := ht
  notBelow := by
    rw [hchanges.resolve, hchanges.resolve]
    exact h.notBelow
  notAround := by
    rw [hchanges.resolve, hchanges.resolve]
    exact h.notAround

/-- A project is the same after changes outside the content directory. -/
theorem sameProject (h : site.IsApart d) (hproject : site.content.HasProject d id)
    (hchanges : site.ChangesElsewhere d d') (ht : d'.IsTree) :
    site.content.SameProject d d' id :=
  hproject.same_of_changes h.tree ht hchanges fun _ hl hbelow =>
    hl ((List.prefix_append _ _).trans hbelow)

/-- The projects are the same after changes outside the content directory, if that
    is there. -/
theorem projects_eq {ids ids' : List Text} (h : site.IsApart d)
    (hdir : d.HasDirectory site.settings.contentDir) (hchanges : site.ChangesElsewhere d d')
    (ht : d'.IsTree) (hids : site.projects d = .ok ids) (hids' : site.projects d' = .ok ids') :
    ids' = ids := by
  have hmetadata : ∀ id,
      site.content.locationOf d id ++ [Content.metadataFile] ∉ site.elsewhere d := fun id hmem =>
    hmem (by rw [Content.locationOf, List.append_assoc]; exact List.prefix_append _ _)
  refine (Content.projects_congr h.tree ht hdir (hchanges.hasDirectory hdir) (fun id => ?_)
    (mapError_eq_ok.1 hids) (mapError_eq_ok.1 hids')).symm
  exact ⟨fun hproject => hproject.of_changes hchanges (hmetadata id),
    fun hproject => hproject.of_changes_to h.tree hdir hchanges (hmetadata id)⟩

end IsApart

/-! ## Edits of the content -/

/-- The content is edited: nothing changes outside the content directory. -/
structure IsEdited (site : Site) (d d' : Disk) : Prop where
  tree : d'.IsTree
  working : d'.working = d.working
  elsewhere : ∀ l ∈ site.elsewhere d, d'.get? l = d.get? l

namespace IsEdited

theorem resolve (h : site.IsEdited d d') (p : Path) : d'.resolve p = d.resolve p :=
  Disk.resolve_congr h.working p

theorem isApart (hedit : site.IsEdited d d') (h : site.IsApart d) : site.IsApart d' where
  tree := hedit.tree
  notBelow := by
    rw [hedit.resolve, hedit.resolve]
    exact h.notBelow
  notAround := by
    rw [hedit.resolve, hedit.resolve]
    exact h.notAround

theorem bytesAt (hedit : site.IsEdited d d') {l : Location} (hl : l ∈ site.elsewhere d) :
    d'.bytesAt l = d.bytesAt l := by
  rw [Disk.bytesAt, Disk.bytesAt, hedit.elsewhere l hl]

/-- To put an entry below the content directory is an edit. -/
theorem put {l : Location} {entry : Disk.Entry} (ht : d.IsTree) (hl : d.HasPlace l)
    (hfree : d.get? l ≠ some .directory) (hbelow : d.resolve site.settings.contentDir <+: l) :
    site.IsEdited d (d.put l entry) where
  tree := ht.put hl hfree entry
  working := rfl
  elsewhere _ hother := Disk.get?_put_of_ne d entry fun heq => hother (heq ▸ hbelow)

end IsEdited

/-! ## The paths of the content and of the output -/

/-- The path of the content directory leads to it, if it is there. -/
def LeadsToContent (site : Site) (d : Disk) : Prop :=
  d.get? (d.resolve site.settings.contentDir) = some .directory →
    d.HasDirectory site.settings.contentDir

instance (site : Site) (d : Disk) : Decidable (site.LeadsToContent d) :=
  inferInstanceAs (Decidable (_ → _))

/-- The path of the output directory leads to it, if it is there. -/
def LeadsToOutput (site : Site) (d : Disk) : Prop :=
  d.get? (d.resolve site.settings.outputDir) = some .directory →
    d.HasDirectory site.settings.outputDir

instance (site : Site) (d : Disk) : Decidable (site.LeadsToOutput d) :=
  inferInstanceAs (Decidable (_ → _))

namespace LeadsToOutput

theorem of_hasDirectory (h : d.HasDirectory site.settings.outputDir) : site.LeadsToOutput d :=
  fun _ => h

/-- The path goes on leading to the output directory if that is not made anew. -/
theorem of_changes (h : site.LeadsToOutput d) (hchanges : Changes files d d')
    (hsame : d'.get? (d.resolve site.settings.outputDir) =
      d.get? (d.resolve site.settings.outputDir)) : site.LeadsToOutput d' := by
  intro hthere
  rw [hchanges.resolve, hsame] at hthere
  exact hchanges.hasDirectory (h hthere)

/-- Where the page of a project is, its path leads, unless that is unfit. -/
theorem locate_pagePath_ne (h : site.LeadsToOutput d) (ht : d.IsTree) (hid : IsName id)
    (hbytes : d.bytesAt (d.resolve (site.pagePath id)) ≠ none) :
    d.locate (site.pagePath id) ≠ .error .notFound := by
  obtain ⟨bytes, hbytes⟩ := Option.ne_none_iff_exists'.1 hbytes
  obtain ⟨modified, hget⟩ := Disk.bytesAt_eq_some_iff.1 hbytes
  rw [resolve_pagePath site d hid] at hget
  obtain ⟨hlocate, -⟩ := h (ht.directory_of_isPrefix hget (List.prefix_append _ _) (by simp))
  have hparts : (site.pagePath id).parts =
      site.settings.outputDir.parts ++ ["projects".toList, id ++ ".json".toList] := by
    rw [pagePath, Path.parts_child _ (isName_pageFile hid), pagesDir,
      Path.parts_child _ isName_pagesDir, List.append_assoc]
    rfl
  have hstart : d.startOf (site.pagePath id) = d.startOf site.settings.outputDir := by
    rw [pagePath, d.startOf_child _ (isName_pageFile hid), pagesDir,
      d.startOf_child _ isName_pagesDir]
  rw [Disk.locate_eq, Disk.pathFlaw?]
  split
  · rename_i cause hcause
    intro hnotFound
    obtain rfl := Except.error.inj hnotFound
    split at hcause
    · cases hcause
    · split at hcause <;> cases hcause
  · rw [hstart, hparts, Disk.walk_append, (Disk.locate_eq_ok_iff.1 hlocate).2, ok_bind]
    rcases ht.walk_below hget with hwalk | hwalk <;> rw [hwalk] <;> simp

end LeadsToOutput

/-- A page that is deleted is gone. -/
theorem bytesAt_pagePath_of_delete (h : site.LeadsToOutput d) (ht : d.IsTree) (hid : IsName id)
    (hdelete : d.delete (site.pagePath id) = .ok d') :
    d'.bytesAt (d.resolve (site.pagePath id)) = none := by
  rcases (Disk.deleted_of_delete ht hdelete).locate with ⟨-, hnone⟩ | ⟨hlocate, rfl⟩
  · rw [Disk.bytesAt, hnone]
  · by_contra hbytes
    exact h.locate_pagePath_ne ht hid hbytes hlocate

end Marginalia.Site
