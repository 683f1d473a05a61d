import Marginalia.Proofs.Site.UpToDate

/-!
# Projects that are stale

A file that is written into the directory of a project makes this one stale, and no other
(`IsSettled.write`, `IsSettled.writeElse`). A rebuild makes its project up to date if it is
done (`IsSettled.rebuild`), and makes no project stale even if it fails half-way
(`IsSettled.leftBy_rebuild`): of a project that is up to date it writes the same page
again, and of one that is stale nothing is asked.
-/

namespace Marginalia.Site

open Disk (Changes leftBy leftBy_of_ok leftBy_of_error)

variable {site : Site} {limits : Limits} {d d' : Disk} {id : Text} {page : Page} {l : Location}
  {stale : Set Text}
  {files : Set Location}

/-! ## Writing content -/

/-- A file below the content directory is written, with the directories that lead there.
    Nothing is deleted. -/
structure Writes (site : Site) (l : Location) (d d' : Disk) : Prop where
  edited : site.IsEdited d d'
  changes : Changes {l} d d'
  isFile : d'.bytesAt l ≠ none
  below : d.resolve site.settings.contentDir <+: l

namespace Writes

/-- A file that is not below the directory of a project is not its metadata. -/
theorem metadata_notMem (hl : ¬site.content.locationOf d id <+: l) :
    site.content.locationOf d id ++ [Content.metadataFile] ∉ ({l} : Set Location) := fun hmem =>
  hl (Set.mem_singleton_iff.1 hmem ▸ List.prefix_append _ _)

theorem hasProject_iff (hwrite : site.Writes l d d') (ht : d.IsTree)
    (hcontent : d.HasDirectory site.settings.contentDir)
    (hl : ¬site.content.locationOf d id <+: l) :
    site.content.HasProject d' id ↔ site.content.HasProject d id :=
  ⟨fun hproject => hproject.of_changes_to ht hcontent hwrite.changes (metadata_notMem hl),
    fun hproject => hproject.of_changes hwrite.changes (metadata_notMem hl)⟩

/-- No project is lost. -/
theorem hasProject (hwrite : site.Writes l d d') (hproject : site.content.HasProject d id) :
    site.content.HasProject d' id := by
  obtain ⟨hlocate, hbytes⟩ := Disk.isFile_eq_true_iff.1 hproject.isFile
  refine ⟨hproject.isName, hwrite.changes.hasDirectory hproject.hasDirectory,
    Disk.isFile_eq_true_iff.2 ?_⟩
  rw [hwrite.changes.resolve]
  refine ⟨hwrite.changes.locate hlocate, ?_⟩
  by_cases hl : d.resolve ((site.content.directory.child id).child Content.metadataFile) = l
  · rw [hl]
    exact hwrite.isFile
  · rw [hwrite.changes.bytesAt hl]
    exact hbytes

/-- The output of a project stays up to date if the file is not below its directory. -/
theorem isUpToDate (hwrite : site.Writes l d d') (h : site.IsApart d)
    (hproject : site.content.HasProject d id) (hl : ¬site.content.locationOf d id <+: l)
    (hup : site.IsUpToDate limits d id) : site.IsUpToDate limits d' id := by
  refine hup.of_changes (hproject.same_of_changes h.tree hwrite.edited.tree hwrite.changes ?_)
    hwrite.changes ?_
  · exact fun l' hl' => Set.mem_singleton_iff.1 hl' ▸ hl
  · intro hmem
    exact h.pagePath_mem_elsewhere hproject.isName (Set.mem_singleton_iff.1 hmem ▸ hwrite.below)

end Writes

namespace IsSettled

/-- A project is stale after a write to its directory. -/
theorem write (h : site.IsSettled limits stale d) (hwrite : site.Writes l d d')
    (hproject : site.content.HasProject d' id) (hl : site.content.locationOf d id <+: l) :
    site.IsSettled limits (insert id stale) d' where
  apart := hwrite.edited.isApart h.apart
  hasContent := hwrite.changes.hasDirectory h.hasContent
  hasOutput := hwrite.changes.hasDirectory h.hasOutput
  isUpToDate other hother hnew := by
    obtain ⟨hne, hold⟩ := not_or.1 hnew
    have hapart : ¬site.content.locationOf d other <+: l := fun hother =>
      hne (Content.locationOf_inj hother hl)
    have hother := (hwrite.hasProject_iff h.apart.tree h.hasContent hapart).1 hother
    exact hwrite.isUpToDate h.apart hother hapart (h.isUpToDate other hother hold)
  isIndexed hnone := absurd (Set.mem_insert id stale) (hnone id hproject)

/-- No project is stale after a write elsewhere. -/
theorem writeElse (h : site.IsSettled limits stale d) (hwrite : site.Writes l d d')
    (hl : ∀ id, site.content.HasProject d' id → ¬site.content.locationOf d id <+: l) :
    site.IsSettled limits stale d' := by
  have hsame : site.SameContent d d' := by
    refine ⟨fun id => ⟨fun hproject => ?_, hwrite.hasProject⟩, fun id hproject => ?_⟩
    · exact (hwrite.hasProject_iff h.apart.tree h.hasContent (hl id hproject)).1 hproject
    · refine hproject.same_of_changes h.apart.tree hwrite.edited.tree hwrite.changes fun l' hl' => ?_
      exact Set.mem_singleton_iff.1 hl' ▸ hl id (hwrite.hasProject hproject)
  refine ⟨hwrite.edited.isApart h.apart, hwrite.changes.hasDirectory h.hasContent,
    hwrite.changes.hasDirectory h.hasOutput, fun id hproject hold => ?_, fun hnone => ?_⟩
  · have hbefore := (hsame.hasProject_iff id).1 hproject
    exact hwrite.isUpToDate h.apart hbefore (hl id hproject) (h.isUpToDate id hbefore hold)
  · obtain ⟨cards, hcards, hholds⟩ :=
      h.isIndexed fun id hproject => hnone id (hwrite.hasProject hproject)
    refine ⟨cards, hcards.of_sameContent hsame, hholds.of_changes hwrite.changes fun hmem => ?_⟩
    exact h.apart.indexPath_mem_elsewhere (Set.mem_singleton_iff.1 hmem ▸ hwrite.below)

/-! ## Rebuilding -/

/-- Writing the page of a project makes none stale, whatever comes of it. -/
theorem leftBy_writePage (h : site.IsSettled limits stale d)
    (hpage : site.buildPage limits d id = .ok page) :
    site.IsSettled limits stale (leftBy (site.writePage limits page d)) := by
  obtain ⟨hname, rfl⟩ := isName_of_buildPage hpage
  have hconfined := confined_writePage h.apart limits page
  have hsame := h.apart.sameContent_writePage h.hasContent limits hname
  refine ⟨h.apart.of_changes hconfined.changes hconfined.tree,
    hconfined.changes.hasDirectory h.hasContent, hconfined.changes.hasDirectory h.hasOutput,
    fun other hother hold => ?_, fun hnone => ?_⟩
  · have hother := (hsame.hasProject_iff other).1 hother
    have hup := h.isUpToDate other hother hold
    by_cases heq : other = page.project.id
    · -- The project is up to date, so the same page is written again.
      subst heq
      obtain ⟨outcome, houtcome, hpublished⟩ := hup
      have hlax := (site.outcome_lax limits d _).eq_ok (outcome_eq_page_iff.2 hpage)
      obtain rfl := Except.ok.inj (houtcome.symm.trans hlax)
      exact ⟨_, (outcome_congr (hsame.sameProject _ hother)).trans houtcome,
        hpublished.of_bytesAt hconfined.changes
          (bytesAt_writeRecord_of_holds h.apart.tree hpublished _)⟩
    · refine hup.of_changes (hsame.sameProject other hother) hconfined.changes fun hmem => heq ?_
      exact (resolve_pagePath_inj hother.isName hname).1 (Set.mem_singleton_iff.1 hmem)
  · obtain ⟨cards, hcards, hholds⟩ :=
      h.isIndexed fun other hother => hnone other ((hsame.hasProject_iff other).2 hother)
    refine ⟨cards, hcards.of_sameContent hsame, hholds.of_changes hconfined.changes fun hmem => ?_⟩
    exact resolve_pagePath_ne_indexPath hname (Set.mem_singleton_iff.1 hmem).symm

/-- Writing the index makes no project stale, whatever comes of it. -/
theorem leftBy_writeIndex (h : site.IsSettled limits stale d) :
    site.IsSettled limits stale (leftBy (site.writeIndex limits d)) := by
  have hconfined := confined_writeIndex h.apart limits
  have hsame := h.apart.sameContent_writeIndex h.hasContent limits
  refine ⟨h.apart.of_changes hconfined.changes hconfined.tree,
    hconfined.changes.hasDirectory h.hasContent, hconfined.changes.hasDirectory h.hasOutput,
    fun other hother hold => ?_, fun hnone => ?_⟩
  · have hother := (hsame.hasProject_iff other).1 hother
    exact (h.isUpToDate other hother hold).of_changes (hsame.sameProject other hother)
      hconfined.changes (resolve_pagePath_ne_indexPath hother.isName)
  · have hall : ∀ other, site.content.HasProject d other → other ∉ stale := fun other hother =>
      hnone other ((hsame.hasProject_iff other).2 hother)
    have hkeeps := keepsBytes_writeIndex h.apart
      (fun other hother => h.isUpToDate other hother (hall other hother)) (h.isIndexed hall)
    exact (h.of_bytesAt
      (hconfined.changes.mono (Set.singleton_subset_iff.2 h.apart.indexPath_mem_elsewhere))
      hconfined.tree hkeeps).isIndexed hnone

/-- A rebuild makes no project stale, whatever comes of it. -/
theorem leftBy_rebuild (h : site.IsSettled limits stale d) (id : Text) :
    site.IsSettled limits stale (leftBy (site.rebuild limits id d)) := by
  cases hrebuild : site.rebuild limits id d with
  | ok page d' =>
    obtain ⟨hpage, d₁, hwrite, hindex⟩ := rebuild_eq_ok.1 hrebuild
    have h₁ := leftBy_of_ok hwrite ▸ h.leftBy_writePage hpage
    exact leftBy_of_ok hindex ▸ h₁.leftBy_writeIndex
  | error failure d' =>
    rcases rebuild_eq_error hrebuild with ⟨-, rfl⟩ | ⟨page, hpage, hwrite | ⟨d₁, hwrite, hindex⟩⟩
    · exact h
    · exact leftBy_of_error hwrite ▸ h.leftBy_writePage hpage
    · have h₁ := leftBy_of_ok hwrite ▸ h.leftBy_writePage hpage
      exact leftBy_of_error hindex ▸ h₁.leftBy_writeIndex

/-- A page that is written is up to date. -/
theorem isUpToDate_of_writePage (h : site.IsSettled limits stale d)
    (hpage : site.buildPage limits d id = .ok page)
    (hwrite : site.writePage limits page d = .ok () d') (hproject : site.content.HasProject d' id) :
    site.IsUpToDate limits d' id := by
  obtain ⟨hname, rfl⟩ := isName_of_buildPage hpage
  have hsame := leftBy_of_ok hwrite ▸ h.apart.sameContent_writePage h.hasContent limits hname
  have hproject := (hsame.hasProject_iff _).1 hproject
  exact ⟨.inl page, (outcome_congr (hsame.sameProject _ hproject)).trans
      ((site.outcome_lax limits d _).eq_ok (outcome_eq_page_iff.2 hpage)),
    (holds_of_writePage h.apart hname hwrite).1⟩

/-- With a page written, all is up to date but what was stale besides its project. -/
theorem isUpToDate_of_notMem {other : Text} (h : site.IsSettled limits stale d)
    (hpage : site.buildPage limits d id = .ok page)
    (hwrite : site.writePage limits page d = .ok () d') (hother : site.content.HasProject d' other)
    (hfresh : other ∉ stale \ {id}) : site.IsUpToDate limits d' other := by
  by_cases hold : other ∈ stale
  · obtain rfl : other = id := not_not.1 fun hne => hfresh ⟨hold, hne⟩
    exact h.isUpToDate_of_writePage hpage hwrite hother
  · exact (leftBy_of_ok hwrite ▸ h.leftBy_writePage hpage).isUpToDate other hother hold

/-- A rebuild that is done makes its project up to date. -/
theorem rebuild (h : site.IsSettled limits stale d)
    (hrebuild : site.rebuild limits id d = .ok page d') :
    site.IsSettled limits (stale \ {id}) d' := by
  have h' := leftBy_of_ok hrebuild ▸ h.leftBy_rebuild id
  obtain ⟨hpage, d₁, hwrite, hindex⟩ := rebuild_eq_ok.1 hrebuild
  have h₁ := leftBy_of_ok hwrite ▸ h.leftBy_writePage hpage
  have hchanges := ((confined_writeIndex h₁.apart limits).ok hindex).1
  have hsame := leftBy_of_ok hindex ▸ h₁.apart.sameContent_writeIndex h₁.hasContent limits
  refine ⟨h'.apart, h'.hasContent, h'.hasOutput, fun other hother hfresh => ?_, fun hnone => ?_⟩
  · have hother := (hsame.hasProject_iff other).1 hother
    exact (h.isUpToDate_of_notMem hpage hwrite hother hfresh).of_changes
      (hsame.sameProject other hother) hchanges
      (resolve_pagePath_ne_indexPath hother.isName)
  · refine isIndexed_of_writeIndex h₁.apart h₁.hasContent (fun other hother => ?_) hindex
    exact h.isUpToDate_of_notMem hpage hwrite hother
      (hnone other ((hsame.hasProject_iff other).2 hother))

end IsSettled

end Marginalia.Site
