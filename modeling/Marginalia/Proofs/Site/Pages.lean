import Marginalia.Proofs.Site.Outcome

/-!
# Publishing pages

What becomes of a project is published by writing its page or by taking it away
(`IsPublished`). Each page has a file of its own, so after all outcomes are published
each of them is (`isPublished_of_forM`), and no other file is changed
(`confined_forM`). What keeps them from being published is the disk, or half a
surrogate pair on a page (`failure_of_forM`).
-/

namespace Marginalia.Site

open Disk (Changes)

variable {site : Site} {limits : Limits} {d d' : Disk} {id : Text} {o : Text × Outcome}
  {outcomes : List (Text × Outcome)} {failure : Failure} {files : Set Location}

/-- An outcome of a project that has a name. -/
structure IsOutcome (o : Text × Outcome) : Prop where
  isName : Disk.IsName o.1
  /-- A page is that of the project. -/
  page : ∀ page, o.2 = .inl page → page.project.id = o.1

/-- The page of a project stands in its file, or there is no such file if it has no
    page. -/
def IsPublished (site : Site) (d : Disk) (o : Text × Outcome) : Prop :=
  match o.2 with
  | .inl page => Holds d (site.pagePath o.1) page.record
  | .inr _ => d.bytesAt (d.resolve (site.pagePath o.1)) = none

/-- The files of the pages of projects. -/
def pageFiles (site : Site) (d : Disk) (ids : List Text) : Set Location :=
  {l | ∃ id ∈ ids, l = d.resolve (site.pagePath id)}

/-- What is published stays so while the bytes there do. -/
theorem IsPublished.of_bytesAt (h : site.IsPublished d o) (hchanges : Changes files d d')
    (hbytes : d'.bytesAt (d.resolve (site.pagePath o.1)) =
      d.bytesAt (d.resolve (site.pagePath o.1))) : site.IsPublished d' o := by
  obtain ⟨id, outcome⟩ := o
  cases outcome with
  | inl page => exact Holds.of_bytesAt h hchanges hbytes
  | inr report =>
    change d'.bytesAt (d'.resolve (site.pagePath id)) = none
    rw [hchanges.resolve, hbytes]
    exact h

/-- What is published stays so when other files change. -/
theorem IsPublished.of_changes (h : site.IsPublished d o) (hchanges : Changes files d d')
    (hfiles : d.resolve (site.pagePath o.1) ∉ files) : site.IsPublished d' o :=
  h.of_bytesAt hchanges (hchanges.bytesAt hfiles)

/-- Where there is a file for its page, a page of the project is published. -/
theorem exists_page_of_isFile (h : site.IsPublished d o)
    (hfile : d.isFile (site.pagePath o.1) = .ok true) : ∃ page, o.2 = .inl page := by
  obtain ⟨id, outcome⟩ := o
  cases outcome with
  | inl page => exact ⟨page, rfl⟩
  | inr report => exact absurd h (Disk.isFile_eq_true_iff.1 hfile).2

/-- What comes of building a page is an outcome of its project. -/
theorem isOutcome_of_outcome {outcome : Outcome} (hname : Disk.IsName id)
    (h : site.outcome limits d id = .ok outcome) : IsOutcome (id, outcome) := by
  refine ⟨hname, ?_⟩
  rintro page rfl
  exact (Content.id_of_project (project_of_buildPage (outcome_eq_page_iff.1 h)).1).2

/-! ## One project -/

section Page

variable {page : Page}

/-- Writing a page changes its file only. -/
theorem confined_writePage (h : site.IsApart d) (limits : Limits) (page : Page) :
    Confined {d.resolve (site.pagePath page.project.id)} (site.writePage limits page) d :=
  confined_writeRecord h.tree _ _ _

/-- A page that is written stands in its file, in the output directory. -/
theorem holds_of_writePage (h : site.IsApart d) (hname : Disk.IsName page.project.id)
    (hwrite : site.writePage limits page d = .ok () d') :
    Holds d' (site.pagePath page.project.id) page.record ∧
      d'.HasDirectory site.settings.outputDir := by
  obtain ⟨hholds, hdir⟩ := holds_of_writeRecord h.tree hwrite
  rw [parent_pagePath site hname] at hdir
  exact ⟨hholds, hdir.of_child isName_pagesDir⟩

/-- A page is not written because its metadata is not whole, or because the disk fails
    and no file is changed. -/
theorem unwritten_of_writePage (h : site.IsApart d)
    (hwrite : site.writePage limits page d = .error failure d') :
    failure = .unencodable ∧ ¬page.record.IsWhole ∨ (∃ e, failure = .disk e) ∧ Changes ∅ d d' :=
  (unwritten_of_writeRecord h.tree hwrite).imp_left fun ⟨hfailure, hhalf, _⟩ => ⟨hfailure, hhalf⟩

end Page

/-- Publishing an outcome changes the file of the page only. -/
theorem confined_publish (h : site.IsApart d) (limits : Limits) (ho : IsOutcome o) :
    Confined {d.resolve (site.pagePath o.1)} (site.publish limits o) d := by
  obtain ⟨id, outcome⟩ := o
  cases outcome with
  | inl page =>
    obtain rfl := ho.page page rfl
    exact confined_writePage h limits page
  | inr report => exact .delete h.tree _

/-- An outcome that is published is so, and the path of the output directory leads to
    it still. -/
theorem isPublished_of_publish (h : site.IsApart d) (hlead : site.LeadsToOutput d)
    (ho : IsOutcome o) (hpublish : site.publish limits o d = .ok () d') :
    site.IsPublished d' o ∧ site.LeadsToOutput d' := by
  obtain ⟨id, outcome⟩ := o
  cases outcome with
  | inl page =>
    obtain rfl := ho.page page rfl
    obtain ⟨hholds, hdir⟩ := holds_of_writePage h ho.isName hpublish
    exact ⟨hholds, .of_hasDirectory hdir⟩
  | inr report =>
    have hdelete := Disk.atOnce_eq_ok_iff.1 (Publishing.changing_eq_ok.1 hpublish)
    have hdeleted := Disk.deleted_of_delete h.tree hdelete
    refine ⟨?_, hlead.of_changes hdeleted.changes (hdeleted.other _ fun heq => ?_)⟩
    · change d'.bytesAt (d'.resolve (site.pagePath id)) = none
      rw [hdeleted.changes.resolve]
      exact bytesAt_pagePath_of_delete hlead h.tree ho.isName hdelete
    · rw [resolve_pagePath site d ho.isName] at heq
      simpa using congrArg List.length heq

/-- What keeps an outcome from being published is the disk, or the metadata on a
    page. -/
theorem failure_of_publish (h : site.IsApart d) (ho : IsOutcome o)
    (hpublish : site.publish limits o d = .error failure d') : (∃ e, failure = .disk e) ∨
      failure = .unencodable ∧ ∃ page, o.2 = .inl page ∧ ¬page.record.IsWhole := by
  obtain ⟨id, outcome⟩ := o
  cases outcome with
  | inl page =>
    obtain rfl := ho.page page rfl
    rcases unwritten_of_writePage h hpublish with ⟨rfl, hhalf⟩ | ⟨hdisk, -⟩
    · exact .inr ⟨rfl, page, rfl, hhalf⟩
    · exact .inl hdisk
  | inr report =>
    obtain ⟨e, -, rfl⟩ := Publishing.changing_eq_error.1 hpublish
    exact .inl ⟨e, rfl⟩

/-! ## Projects in turn -/

/-- Publishing outcomes changes the files of their pages only. -/
theorem confined_forM (h : site.IsApart d) (limits : Limits) (ho : ∀ o ∈ outcomes, IsOutcome o) :
    Confined (site.pageFiles d (outcomes.map (·.1))) (outcomes.forM (site.publish limits)) d := by
  induction outcomes generalizing d with
  | nil => exact .pure h.tree _
  | cons o rest ih =>
    obtain ⟨ho, hrest⟩ := List.forall_mem_cons.1 ho
    have hfirst := confined_publish h limits ho
    refine (hfirst.mono ?_).bind fun _ d₁ hpublish => ?_
    · exact Set.singleton_subset_iff.2 ⟨o.1, List.mem_cons_self, rfl⟩
    · obtain ⟨hchanges, ht⟩ := hfirst.ok hpublish
      refine (ih (h.of_changes hchanges ht) hrest).mono ?_
      rintro l ⟨id, hid, rfl⟩
      exact ⟨id, List.mem_cons_of_mem _ hid, hchanges.resolve _⟩

/-- Outcomes of different projects that are published in turn are all published. -/
theorem isPublished_of_forM (h : site.IsApart d) (hlead : site.LeadsToOutput d)
    (ho : ∀ o ∈ outcomes, IsOutcome o) (hnodup : (outcomes.map (·.1)).Nodup)
    (hpublish : outcomes.forM (site.publish limits) d = .ok () d') :
    (∀ o ∈ outcomes, site.IsPublished d' o) ∧ site.LeadsToOutput d' := by
  induction outcomes generalizing d with
  | nil =>
    obtain rfl := (Publishing.pure_eq_ok.1 hpublish).2
    exact ⟨fun o ho => absurd ho List.not_mem_nil, hlead⟩
  | cons o rest ih =>
    obtain ⟨ho, hrest⟩ := List.forall_mem_cons.1 ho
    obtain ⟨hnew, hnodup⟩ := List.nodup_cons.1 hnodup
    obtain ⟨_, d₁, hfirst, hpublish⟩ := Publishing.bind_eq_ok.1 hpublish
    obtain ⟨hchanges, ht⟩ := (confined_publish h limits ho).ok hfirst
    have h₁ := h.of_changes hchanges ht
    obtain ⟨hpublished, hlead₁⟩ := isPublished_of_publish h hlead ho hfirst
    obtain ⟨hall, hlead'⟩ := ih h₁ hlead₁ hrest hnodup hpublish
    refine ⟨List.forall_mem_cons.2 ⟨?_, hall⟩, hlead'⟩
    -- The pages that are published after this one are elsewhere.
    refine hpublished.of_changes ((confined_forM h₁ limits hrest).ok hpublish).1 ?_
    rintro ⟨id, hid, heq⟩
    obtain ⟨other, hother, rfl⟩ := List.mem_map.1 hid
    have hsame := (resolve_pagePath_inj ho.isName (hrest other hother).isName).1 heq
    exact hnew (List.mem_map.2 ⟨other, hother, hsame.symm⟩)

/-- What keeps outcomes from being published is the disk, or the metadata on a page. -/
theorem failure_of_forM (h : site.IsApart d) (ho : ∀ o ∈ outcomes, IsOutcome o)
    (hpublish : outcomes.forM (site.publish limits) d = .error failure d') :
    (∃ e, failure = .disk e) ∨
      failure = .unencodable ∧ ∃ o ∈ outcomes, ∃ page, o.2 = .inl page ∧ ¬page.record.IsWhole := by
  induction outcomes generalizing d with
  | nil => cases hpublish
  | cons o rest ih =>
    obtain ⟨ho, hrest⟩ := List.forall_mem_cons.1 ho
    rcases Publishing.bind_eq_error.1 hpublish with hpublish | ⟨_, d₁, hfirst, hpublish⟩
    · rcases failure_of_publish h ho hpublish with hdisk | ⟨hfailure, page, hpage, hhalf⟩
      · exact .inl hdisk
      · exact .inr ⟨hfailure, o, List.mem_cons_self, page, hpage, hhalf⟩
    · obtain ⟨hchanges, ht⟩ := (confined_publish h limits ho).ok hfirst
      rcases ih (h.of_changes hchanges ht) hrest hpublish with hdisk | ⟨hfailure, o', ho', hhalf⟩
      · exact .inl hdisk
      · exact .inr ⟨hfailure, o', List.mem_cons_of_mem _ ho', hhalf⟩

end Marginalia.Site
