import Marginalia.Proofs.Site.Isolation

/-!
# Builds that are done

Nothing is in the way of the output of a site (`IsClear`) if the output directory is there
and no directory stands where a file is to be written, nor a file where the directory of
the pages is to be made. Then what becomes of a project is published
(`IsClear.exists_publish`), and nothing is in the way afterwards (`IsClear.publish`). No
directories are made but the one of the pages, so those of the projects stay as they are
(`Midway.depthBelow_eq`). So a build of projects that are fit is done
(`IsClear.exists_build`): it fails neither for the projects nor for the disk.
-/

namespace Marginalia.Site

open Disk (IsName)

variable {site : Site} {limits : Limits} {d d' d₁ : Disk} {id : Text} {ids : List Text}
  {page : Page}
  {o : Text × Outcome} {outcomes : List (Text × Outcome)} {l : Location}

/-! ## Outcomes of fit projects -/

/-- Something becomes of each project, if each is fit. -/
theorem exists_outcomes (hcapacity : 1 ≤ site.settings.concurrency)
    (hids : site.projects d = .ok ids)
    (hfit : ∀ id ∈ ids, site.IsFit limits d id) :
    ∃ outcomes, site.outcomes limits d = .ok outcomes := by
  rw [outcomes_eq_mapM limits hcapacity hids]
  cases hall : ids.mapM fun id => do return (id, ← site.outcome limits d id) with
  | ok outcomes => exact ⟨outcomes, rfl⟩
  | error failure =>
    obtain ⟨id, hid, hfails⟩ := exists_of_mapM_eq_error hall
    obtain ⟨o, ho, -⟩ := hfit id hid
    rw [ho] at hfails
    cases hfails

/-! ## What publishing leaves alone -/

/-- No page is where the directory of the pages is. -/
theorem resolve_pagePath_ne_pagesDir (h : IsName id) :
    d.resolve (site.pagePath id) ≠ d.resolve site.pagesDir := by
  rw [resolve_pagePath site d h, resolve_pagesDir]
  intro heq
  simpa using congrArg List.length heq

/-- The index is not where the directory of the pages is. -/
theorem resolve_indexPath_ne_pagesDir : d.resolve site.indexPath ≠ d.resolve site.pagesDir := by
  rw [resolve_indexPath, resolve_pagesDir]
  intro heq
  revert heq
  rw [List.append_right_inj]
  decide

/-- Besides its page, what is published of a project changes nothing but the directory of
    the pages, which may be made. -/
theorem get?_of_publish (h : site.IsApart d) (hout : d.HasDirectory site.settings.outputDir)
    (ho : IsOutcome o) (hpublish : site.publish limits o d = .ok () d')
    (hpage : l ≠ d.resolve (site.pagePath o.1)) (hpages : l ≠ d.resolve site.pagesDir) :
    d'.get? l = d.get? l := by
  obtain ⟨id, outcome⟩ := o
  cases outcome with
  | inl page =>
    obtain rfl := ho.page page rfl
    obtain ⟨d₁, hmake, hother⟩ := get?_of_writeRecord h.tree hpublish
    rw [parent_pagePath site ho.isName] at hmake
    rw [hother l hpage, Disk.get?_of_makeDirectories_child hout isName_pagesDir hmake hpages]
  | inr message =>
    have hdelete := Disk.atOnce_eq_ok_iff.1 (Publishing.changing_eq_ok.1 hpublish)
    exact (Disk.deleted_of_delete h.tree hdelete).other l hpage

/-- The content directory is the same after an outcome is published. -/
theorem sameDirectory_of_publish (h : site.IsApart d)
    (hcontent : d.HasDirectory site.settings.contentDir)
    (hout : d.HasDirectory site.settings.outputDir) (ho : IsOutcome o)
    (hpublish : site.publish limits o d = .ok () d') : site.content.SameDirectory d d' := by
  obtain ⟨hchanges, ht⟩ := (confined_publish h limits ho).ok hpublish
  refine ⟨h.tree, ht, hchanges.working, hcontent, hchanges.hasDirectory hcontent, fun l hl => ?_⟩
  refine get?_of_publish h hout ho hpublish ?_ ?_
  · rintro rfl
    exact h.pagePath_mem_elsewhere ho.isName hl
  · rintro rfl
    exact h.mem_elsewhere (site.resolve_pagesDir d ▸ List.prefix_append _ _) hl

/-- The content directory is the same after outcomes are published in turn. -/
theorem sameDirectory_of_forM (h : site.IsApart d)
    (hcontent : d.HasDirectory site.settings.contentDir)
    (hout : d.HasDirectory site.settings.outputDir) (ho : ∀ o ∈ outcomes, IsOutcome o)
    (hpublish : outcomes.forM (site.publish limits) d = .ok () d') :
    site.content.SameDirectory d d' := by
  induction outcomes generalizing d with
  | nil =>
    obtain rfl := (Publishing.pure_eq_ok.1 hpublish).2
    exact ⟨h.tree, h.tree, rfl, hcontent, hcontent, fun _ _ => rfl⟩
  | cons o rest ih =>
    obtain ⟨ho, hrest⟩ := List.forall_mem_cons.1 ho
    obtain ⟨_, d₁, hfirst, hpublish⟩ := Publishing.bind_eq_ok.1 hpublish
    obtain ⟨hchanges, ht⟩ := (confined_publish h limits ho).ok hfirst
    refine (sameDirectory_of_publish h hcontent hout ho hfirst).trans ?_
    exact ih (h.of_changes hchanges ht) (hchanges.hasDirectory hcontent)
      (hchanges.hasDirectory hout) hrest hpublish

/-- A build into an output directory that is there makes no directories below a project. -/
theorem Midway.depthBelow_eq (m : site.Midway limits d outcomes d₁) (h : site.IsApart d)
    (hout : d.HasDirectory site.settings.outputDir) (ho : o ∈ outcomes) :
    d₁.depthBelow (site.content.directory.child o.1) =
      d.depthBelow (site.content.directory.child o.1) := by
  obtain ⟨-, hknown⟩ := isOutcome_of_outcomes h m.found
  have hsame := sameDirectory_of_forM h (hknown o ho).2.1 hout m.isOutcome m.publish
  exact hsame.depthBelow_eq (m.same o ho).project (m.same o ho).project'

theorem Midway.not_isBuried (m : site.Midway limits d outcomes d₁) (h : site.IsApart d)
    (hout : d.HasDirectory site.settings.outputDir) (ho : o ∈ outcomes) :
    ¬site.IsBuried limits d d₁ o.1 := by
  rintro ⟨hbefore, hafter⟩
  exact hafter (m.depthBelow_eq h hout ho ▸ hbefore)

/-- If all projects are fit and the output directory is there, nothing but a failure of the disk
    ends a build. -/
theorem failure_of_build_of_hasOutput {failure : Failure} (h : site.IsApart d)
    (hout : d.HasDirectory site.settings.outputDir) (hcapacity : 1 ≤ site.settings.concurrency)
    (hids : site.projects d = .ok ids) (hfit : ∀ id ∈ ids, site.IsFit limits d id)
    (hbuild : site.build limits d = .error failure d') : ∃ e, failure = .disk e := by
  rcases failure_of_build h (.of_hasDirectory hout) hcapacity hids hfit hbuild with
    hdisk | ⟨-, ⟨outcomes, m⟩, id, hid, hburied⟩
  · exact hdisk
  · obtain rfl := Except.ok.inj (hids.symm.trans (of_outcomes m.found).1)
    obtain ⟨o, ho, rfl⟩ := List.mem_map.1 hid
    exact absurd hburied (m.not_isBuried h hout ho)

/-! ## A clear way -/

/-- Nothing is in the way of the output of some projects. -/
structure IsClear (site : Site) (d : Disk) (ids : List Text) : Prop where
  apart : site.IsApart d
  hasOutput : d.HasDirectory site.settings.outputDir
  fits_pagesDir : Disk.Fits site.settings.outputDir "projects".toList
  fits_page : ∀ id ∈ ids, Disk.Fits site.pagesDir (id ++ ".json".toList)
  fits_index : Disk.Fits site.settings.outputDir "index.json".toList
  /-- There is no file where the directory of the pages is to be made. -/
  pagesDir : d.bytesAt (d.resolve site.pagesDir) = none
  page : ∀ id ∈ ids, d.get? (d.resolve (site.pagePath id)) ≠ some .directory
  index : d.get? (d.resolve site.indexPath) ≠ some .directory

namespace IsClear

/-- The path of a page leads to it, or nowhere if there is no directory of pages. -/
theorem locate_pagePath (h : site.IsClear d ids) (hname : IsName id) (hid : id ∈ ids) :
    d.locate (site.pagePath id) = .ok (d.resolve (site.pagePath id)) ∨
      d.locate (site.pagePath id) = .error .notFound := by
  have hlocate : d.locate site.pagesDir = .ok (d.resolve site.pagesDir) :=
    h.fits_pagesDir.locate isName_pagesDir h.hasOutput
  cases hget : d.get? (d.resolve site.pagesDir) with
  | none =>
    -- The directory is made with the first page.
    exact .inr (Disk.locate_child_of_free hlocate hget (isName_pageFile hname) (h.fits_page id hid))
  | some entry =>
    cases entry with
    | directory =>
      exact .inl ((h.fits_page id hid).locate (isName_pageFile hname) ⟨hlocate, hget⟩)
    | file content modified =>
      cases h.pagesDir.symm.trans (Disk.bytesAt_eq_some_iff.2 ⟨modified, hget⟩)

theorem exists_writePage (h : site.IsClear d ids) (hname : IsName page.project.id)
    (hid : page.project.id ∈ ids) (hwhole : page.record.IsWhole) :
    ∃ d', site.writePage limits page d = .ok () d' := by
  obtain ⟨d₁, hmake⟩ : ∃ d₁, Disk.makeDirectories site.pagesDir limits.parents d = .ok () d₁ :=
    Disk.exists_makeDirectories_child h.hasOutput isName_pagesDir h.fits_pagesDir h.pagesDir _
  have hmade := Disk.made_of_makeDirectories h.apart.tree hmake
  have hlocate : d₁.locate (site.pagePath page.project.id) =
      .ok (d₁.resolve (site.pagePath page.project.id)) :=
    (h.fits_page _ hid).locate (isName_pageFile hname) hmade.hasDirectory
  refine exists_writeRecord ((parent_pagePath site hname).symm ▸ hmake) hlocate ?_ hwhole
  rw [hmade.changes.resolve, Disk.get?_of_makeDirectories_child h.hasOutput isName_pagesDir hmake
    (resolve_pagePath_ne_pagesDir hname)]
  exact h.page _ hid

/-- What becomes of a project is published, if its page can be written. -/
theorem exists_publish (h : site.IsClear d ids) (ho : IsOutcome o) (hid : o.1 ∈ ids)
    (hwhole : ∀ page, o.2 = .inl page → page.record.IsWhole) :
    ∃ d', site.publish limits o d = .ok () d' := by
  obtain ⟨id, outcome⟩ := o
  cases outcome with
  | inl page =>
    obtain rfl := ho.page page rfl
    exact h.exists_writePage ho.isName hid (hwhole page rfl)
  | inr message =>
    have hlocate := h.locate_pagePath ho.isName hid
    obtain ⟨d', hdelete⟩ := Disk.exists_delete hlocate (h.page id hid)
    exact ⟨d', Publishing.changing_eq_ok.2 (Disk.atOnce_eq_ok_iff.2 hdelete)⟩

/-- There is no directory where an outcome is published. -/
theorem page_of_publish (h : site.IsClear d ids) (ho : IsOutcome o) (hid : o.1 ∈ ids)
    (hpublish : site.publish limits o d = .ok () d') :
    d'.get? (d.resolve (site.pagePath o.1)) ≠ some .directory := by
  obtain ⟨id, outcome⟩ := o
  cases outcome with
  | inl page =>
    obtain rfl := ho.page page rfl
    obtain ⟨text, -, hbytes⟩ := (holds_of_writePage h.apart ho.isName hpublish).1.bytesAt
    obtain ⟨modified, hget⟩ := Disk.bytesAt_eq_some_iff.1 hbytes
    rw [((confined_writePage h.apart limits page).ok hpublish).1.resolve] at hget
    dsimp only
    rw [hget]
    simp
  | inr message =>
    have hdelete := Disk.atOnce_eq_ok_iff.1 (Publishing.changing_eq_ok.1 hpublish)
    rcases (Disk.deleted_of_delete h.apart.tree hdelete).locate with ⟨-, hgone⟩ | ⟨-, rfl⟩
    · rw [hgone]
      simp
    · exact h.page id hid

/-- Nothing is in the way after an outcome is published. -/
theorem publish (h : site.IsClear d ids) (hnames : ∀ id ∈ ids, IsName id) (ho : IsOutcome o)
    (hid : o.1 ∈ ids) (hpublish : site.publish limits o d = .ok () d') : site.IsClear d' ids := by
  obtain ⟨hchanges, ht⟩ := (confined_publish h.apart limits ho).ok hpublish
  have hother := fun {l} => @get?_of_publish site limits d d' o l h.apart h.hasOutput ho hpublish
  refine ⟨h.apart.of_changes hchanges ht, hchanges.hasDirectory h.hasOutput, h.fits_pagesDir,
    h.fits_page, h.fits_index, ?_, fun id hmem => ?_, ?_⟩
  · rw [hchanges.resolve, hchanges.bytesAt fun hmem => resolve_pagePath_ne_pagesDir ho.isName
      (Set.mem_singleton_iff.1 hmem).symm]
    exact h.pagesDir
  · rw [hchanges.resolve]
    by_cases hsame : id = o.1
    · exact hsame ▸ h.page_of_publish ho hid hpublish
    · rw [hother (fun heq => hsame ((resolve_pagePath_inj (hnames id hmem) ho.isName).1 heq))
        (resolve_pagePath_ne_pagesDir (hnames id hmem))]
      exact h.page id hmem
  · rw [hchanges.resolve, hother (resolve_pagePath_ne_indexPath ho.isName).symm
      resolve_indexPath_ne_pagesDir]
    exact h.index

/-! ## Projects in turn -/

/-- Outcomes are published in turn, if the pages among them can be written. Nothing is in the
    way afterwards, and the projects are those from before. -/
theorem exists_forM (h : site.IsClear d ids) (hids : site.projects d = .ok ids)
    (ho : ∀ o ∈ outcomes, IsOutcome o ∧ o.1 ∈ ids ∧ ∀ page, o.2 = .inl page → page.record.IsWhole) :
    ∃ d', outcomes.forM (site.publish limits) d = .ok () d' ∧ site.IsClear d' ids ∧
      site.projects d' = .ok ids := by
  induction outcomes generalizing d with
  | nil => exact ⟨d, rfl, h, hids⟩
  | cons o rest ih =>
    obtain ⟨⟨hfirst, hid, hwhole⟩, hrest⟩ := List.forall_mem_cons.1 ho
    have hprojects := mapError_eq_ok.1 hids
    have hnames : ∀ id ∈ ids, IsName id := fun id hmem =>
      (Content.mem_projects h.apart.tree hprojects hmem).2.isName
    have hcontent := (Content.mem_projects h.apart.tree hprojects hid).1
    obtain ⟨d₁, hpublish⟩ := h.exists_publish hfirst hid hwhole
    -- Nothing is published in the content directory, so the projects stay.
    have hsame := sameDirectory_of_publish h.apart hcontent h.hasOutput hfirst hpublish
    have hids₁ := hsame.projects_eq_ok hprojects
    obtain ⟨d', hall, hclear, hids'⟩ := ih (h.publish hnames hfirst hid hpublish)
      (mapError_eq_ok.2 hids₁) hrest
    exact ⟨d', Publishing.bind_eq_ok.2 ⟨(), d₁, hpublish, hall⟩, hclear, hids'⟩

/-! ## The index -/

/-- The cards of the index are made, if the metadata of the projects with a page can be read
    and written. -/
theorem exists_cards (h : site.IsClear d ids) (hids : site.projects d = .ok ids)
    (hreadable : site.HasReadableMetadata limits d) (hwhole : site.HasWholeMetadata limits d) :
    ∃ cards, site.cards limits d = .ok cards := by
  cases hcards : site.cards limits d with
  | ok cards => exact ⟨cards, rfl⟩
  | error failure =>
    rcases cards_eq_error hcards with hfails | ⟨ids', hids', id, hid, hfails⟩
    · cases hids.symm.trans hfails
    obtain rfl := Except.ok.inj (hids.symm.trans hids')
    have hname := (Content.mem_projects h.apart.tree (mapError_eq_ok.1 hids) hid).2.isName
    rcases cardOf?_eq_error hfails with ⟨e, -, hfile⟩ | ⟨-, hfile, project, hproject, hnone⟩ |
      ⟨cause, -, hfile, hproject, hcause⟩
    · rcases h.locate_pagePath hname hid with hlocate | hlocate
      · cases (Disk.isFile_of_locate hlocate).symm.trans hfile
      · cases (Disk.isFile_of_locate_error hlocate).symm.trans hfile
    · obtain ⟨card, hcard, -⟩ :=
        hasWholeCard_of_isWhole (hwhole ids hids id hid hfile project hproject)
      cases hnone.symm.trans hcard
    · obtain ⟨e, he⟩ := hreadable ids hids id hid hfile cause hproject
      exact absurd he (hcause e)

theorem exists_writeIndex (h : site.IsClear d ids) (hids : site.projects d = .ok ids)
    (hreadable : site.HasReadableMetadata limits d) (hwhole : site.HasWholeMetadata limits d) :
    ∃ d', site.writeIndex limits d = .ok () d' := by
  obtain ⟨cards, hcards⟩ := h.exists_cards hids hreadable hwhole
  have hmake : Disk.makeDirectories site.indexPath.parent limits.parents d = .ok () d :=
    parent_indexPath site ▸ Disk.makeDirectories_of_hasDirectory h.hasOutput _
  have hlocate := h.fits_index.locate isName_indexFile h.hasOutput
  obtain ⟨d', hwrite⟩ := exists_writeRecord hmake hlocate h.index (isWhole_of_cards hwhole hcards)
  exact ⟨d', writeIndex_eq_ok.2 ⟨cards, hcards, hwrite⟩⟩

/-! ## The whole build -/

/-- A build is done if nothing is in its way and all projects are fit. -/
theorem exists_build (h : site.IsClear d ids) (hcapacity : 1 ≤ site.settings.concurrency)
    (hids : site.projects d = .ok ids) (hfit : ∀ id ∈ ids, site.IsFit limits d id) :
    ∃ report d', site.build limits d = .ok report d' := by
  obtain ⟨outcomes, houtcomes⟩ := exists_outcomes hcapacity hids hfit
  obtain ⟨hids', hall⟩ := of_outcomes houtcomes
  obtain rfl := Except.ok.inj (hids.symm.trans hids')
  obtain ⟨-, hknown⟩ := isOutcome_of_outcomes h.apart houtcomes
  have hwritable : ∀ {o page}, o ∈ outcomes → o.2 = .inl page →
      site.IsWritable limits d o.1 page := fun ho hpage =>
    (hfit _ (List.mem_map_of_mem ho)).isWritable (hpage ▸ hall _ ho)
  obtain ⟨d₁, hpublish, hclear, hids₁⟩ := h.exists_forM hids fun o ho =>
    ⟨(hknown o ho).1, List.mem_map_of_mem ho, fun page hpage => (hwritable ho hpage).record⟩
  have m := midway_of_forM h.apart houtcomes hpublish
  have hpublished := m.isPublished h.apart (.of_hasDirectory h.hasOutput)
  -- A project with a page has been built, so its metadata can be read and written.
  have hreadable : site.HasReadableMetadata limits d₁ := by
    intro ids hids id hid hfile cause hproject
    obtain rfl := m.projects ids hids
    obtain ⟨o, ho, rfl⟩ := List.mem_map.1 hid
    obtain ⟨page, hpage⟩ := exists_page_of_isFile (hpublished o ho) hfile
    have hburied := isBuried_of_project_eq_error (m.same o ho) (hwritable ho hpage).read hproject
    exact absurd hburied.2 (m.not_isBuried h.apart h.hasOutput ho)
  have hwhole : site.HasWholeMetadata limits d₁ := by
    intro ids hids id hid hfile project hproject
    obtain rfl := m.projects ids hids
    obtain ⟨o, ho, rfl⟩ := List.mem_map.1 hid
    obtain ⟨page, hpage, rfl⟩ := m.exists_page hpublished ho hfile hproject
    exact (hwritable ho hpage).isWhole (hpage ▸ hall o ho)
  obtain ⟨d', hindex⟩ := hclear.exists_writeIndex hids₁ hreadable hwhole
  exact ⟨_, d', build_eq_ok.2 ⟨outcomes, d₁, houtcomes, hpublish, hindex, rfl⟩⟩

end IsClear

end Marginalia.Site
