import Marginalia.Proofs.Site.Progress
import Marginalia.Proofs.Site.Staleness

/-!
# Rebuilds and builds

After a build, the files of one project are edited, and the project is rebuilt. The output
is then that of a whole build (`rebuild_agrees_with_build`): all other projects are up to
date since the first build, as their files and their output have stayed
(`isSettled_of_edit`), and two disks with the same content that are up to date have the same
output (`IsSettled.bytesAt_eq`). If no directory stands in place of a page, and none is nested
too deeply below a project, the whole build is done, as nothing is in its way where a rebuild
is done (`IsSettled.isClear_of_rebuild`, `IsSettled.admits_of_rebuild`).

All this needs paths that lead to the content and to the output, if these are there. A path
through a directory that is missing leaves the page of a project that could not be built,
which a second build takes away (`rebuild_keeps_stale_page`).
-/

namespace Marginalia.Site

open Disk (Changes IsName leftBy leftBy_of_ok answerOf? eq_ok_of_answerOf?)

variable {site : Site} {limits : Limits} {d d' d₁ d₂ d₃ d₄ : Disk} {id : Text} {ids : List Text}
  {page : Page}
  {report : Report} {stale : Set Text} {l : Location}

/-! ## Edits of one project -/

/-- One project is edited: nothing changes but what is below its directory. -/
structure IsEditedBelow (site : Site) (id : Text) (d d' : Disk) : Prop where
  tree : d'.IsTree
  working : d'.working = d.working
  elsewhere : ∀ l, ¬site.content.locationOf d id <+: l → d'.get? l = d.get? l

namespace IsEditedBelow

theorem isEdited (h : site.IsEditedBelow id d d') : site.IsEdited d d' where
  tree := h.tree
  working := h.working
  elsewhere l hl := h.elsewhere l fun hbelow => hl ((List.prefix_append _ _).trans hbelow)

/-- What is in the output directory stays. -/
theorem get?_output (h : site.IsEditedBelow id d d') (hapart : site.IsApart d)
    (hl : d.resolve site.settings.outputDir <+: l) : d'.get? l = d.get? l :=
  h.isEdited.elsewhere l (hapart.mem_elsewhere hl)

/-- The files of the other projects stay. -/
theorem get?_other {other : Text} (h : site.IsEditedBelow id d d') (hne : other ≠ id)
    (hl : site.content.locationOf d other <+: l) : d'.get? l = d.get? l :=
  h.elsewhere l fun hbelow => hne (Content.locationOf_inj hl hbelow)

end IsEditedBelow

/-- What is published stays so while nothing changes in the output directory, and its path
    leads there. An edit may take directories away that the path goes through. -/
theorem IsPublished.of_output {o : Text × Outcome} (h : site.IsPublished d o) (hname : IsName o.1)
    (hworking : d'.working = d.working) (hout : d'.HasDirectory site.settings.outputDir)
    (hsame : ∀ l, d.resolve site.settings.outputDir <+: l → d'.get? l = d.get? l) :
    site.IsPublished d' o := by
  have hresolve := Disk.resolve_congr hworking
  have hbytes : d'.bytesAt (d.resolve (site.pagePath o.1)) =
      d.bytesAt (d.resolve (site.pagePath o.1)) := by
    rw [Disk.bytesAt, Disk.bytesAt,
      hsame _ (site.resolve_pagePath d hname ▸ List.prefix_append _ _)]
  obtain ⟨id, outcome⟩ := o
  cases outcome with
  | inl page =>
    obtain ⟨text, htext, hread⟩ := h
    obtain ⟨hlocate, hthere⟩ := Disk.read_eq_ok_iff.1 hread
    -- The directory of the pages is there still, and so is the way to it.
    have hpages : d.HasDirectory site.pagesDir :=
      Disk.hasDirectory_of_locate_child hlocate (isName_pageFile hname)
    have hpages' : d'.HasDirectory site.pagesDir := by
      refine ⟨(Disk.fits_of_locate hpages.1 isName_pagesDir).locate isName_pagesDir hout, ?_⟩
      rw [hresolve, hsame _ (site.resolve_pagesDir d ▸ List.prefix_append _ _), hpages.2]
    refine ⟨text, htext, Disk.read_eq_ok_iff.2 ⟨?_, ?_⟩⟩
    · exact (Disk.fits_of_locate hlocate (isName_pageFile hname)).locate (isName_pageFile hname)
        hpages'
    · rw [hresolve, hbytes, hthere]
  | inr message =>
    change d'.bytesAt (d'.resolve (site.pagePath id)) = none
    rw [hresolve, hbytes]
    exact h

/-- A project that is not edited is the one that was there before the build. -/
theorem IsEditedBelow.sameProject {other : Text} (hedit : site.IsEditedBelow id d₁ d₂)
    (h : site.IsApart d) (hreach : site.LeadsToContent d) (hchanges : site.ChangesElsewhere d d₁)
    (hother : site.content.HasProject d₂ other) (hne : other ≠ id) :
    d.HasDirectory site.settings.contentDir ∧ site.content.SameProject d d₂ other := by
  have hworking : d₂.working = d.working := hedit.working.trans hchanges.working
  have hsame : d.SameFiles d₂ (site.content.locationOf d other) := by
    intro names bytes modified
    rw [hedit.get?_other hne
      (Content.locationOf_congr hchanges.working other ▸ List.prefix_append _ _)]
    refine (hchanges.file _ (fun hmem => hmem ?_) bytes modified).symm
    rw [Content.locationOf, List.append_assoc]
    exact List.prefix_append _ _
  have hbytes : d₂.bytesAt (site.content.locationOf d other ++ [Content.metadataFile]) =
      d.bytesAt (site.content.locationOf d other ++ [Content.metadataFile]) := by
    refine Option.ext fun bytes => ?_
    rw [Disk.bytesAt_eq_some_iff, Disk.bytesAt_eq_some_iff]
    exact exists_congr fun modified => (hsame _ bytes modified).symm
  have hcontent : d.HasDirectory site.settings.contentDir := by
    -- The metadata was there, and so was the directory it is in.
    have hfile := (Disk.isFile_eq_true_iff.1 hother.isFile).2
    rw [Content.resolve_metadata _ _ hother.isName, Content.locationOf_congr hworking,
      hbytes] at hfile
    obtain ⟨bytes, hfile⟩ := Option.ne_none_iff_exists'.1 hfile
    obtain ⟨modified, hget⟩ := Disk.bytesAt_eq_some_iff.1 hfile
    rw [Content.locationOf, List.append_assoc] at hget
    refine hreach (h.tree.directory_of_isPrefix hget (List.prefix_append _ _) fun heq => ?_)
    simpa [content] using congrArg List.length heq
  have hbefore := hother.of_bytesAt h.tree hworking hcontent hbytes
  exact ⟨hcontent, h.tree, hedit.tree, hworking, hbefore, hother, hsame⟩

/-- After a build, an edit of one project makes no other one stale. -/
theorem isSettled_of_edit (h : site.IsApart d) (hlead : site.LeadsToOutput d)
    (hreach : site.LeadsToContent d) (hbuild : site.build limits d = .ok report d₁)
    (hedit : site.IsEditedBelow id d₁ d₂) (hlead₂ : site.LeadsToOutput d₂)
    (hproject : site.content.HasProject d₂ id) : site.IsSettled limits {id} d₂ := by
  obtain ⟨outcomes, d₀, m, hindex, -⟩ := midway_of_build h hbuild
  have hids := (of_outcomes m.found).1
  have hnames : ∀ id ∈ outcomes.map (·.1), IsName id :=
    List.forall_mem_map.2 fun o ho => (m.isOutcome o ho).isName
  obtain ⟨hchanges, ht₁⟩ := (confined_build h limits hids).ok hbuild
  have h₁ := h.of_changes hchanges ht₁
  have hout₂ : d₂.HasDirectory site.settings.outputDir := by
    obtain ⟨-, -, -, hout₁⟩ := holds_of_writeIndex m.apart hindex
    refine hlead₂ ?_
    rw [hedit.isEdited.resolve, hedit.get?_output h₁ List.prefix_rfl]
    exact hout₁.2
  refine ⟨hedit.isEdited.isApart h₁, hproject.hasDirectory.of_child hproject.isName, hout₂,
    fun other hother hne => ?_, fun hnone => absurd (Set.mem_singleton id) (hnone id hproject)⟩
  obtain ⟨hcontent, hsame⟩ := hedit.sameProject h hreach
    (hchanges.mono (h.outputFiles_subset hnames)) hother hne
  have hid := Content.mem_of_projects h.tree hcontent (mapError_eq_ok.1 hids) hsame.project
  obtain ⟨outcome, houtcome, hpublished⟩ := isPublished_of_build h hlead hids hid hbuild
  have hlax := (site.outcome_lax limits d other).eq_ok houtcome
  exact ⟨outcome, (outcome_congr hsame).trans hlax, hpublished.of_output hother.isName
    hedit.working hout₂ fun l hl => hedit.get?_output h₁ hl⟩

/-! ## Output that is up to date -/

/-- Two disks with the same content that are up to date have the same output. -/
theorem IsSettled.bytesAt_output (h : site.IsSettled limits ∅ d) (h' : site.IsSettled limits ∅ d')
    (hsame : site.SameContent d d') (hworking : d'.working = d.working)
    (hids : ∀ id ∈ ids, site.content.HasProject d id) (hl : l ∈ site.outputFiles d ids) :
    d'.bytesAt l = d.bytesAt l := by
  rcases hl with rfl | ⟨id, hid, rfl⟩
  · obtain ⟨cards, hcards, hholds⟩ := h.isIndexed fun id _ => Set.notMem_empty id
    obtain ⟨cards', hcards', hholds'⟩ := h'.isIndexed fun id _ => Set.notMem_empty id
    obtain rfl := (hcards.of_sameContent hsame).eq hcards'
    have hbytes := hholds.bytesAt_eq hholds'
    rwa [Disk.resolve_congr hworking] at hbytes
  · have hproject := hids id hid
    obtain ⟨outcome, houtcome, hpublished⟩ := h.isUpToDate id hproject (Set.notMem_empty id)
    obtain ⟨outcome', houtcome', hpublished'⟩ :=
      h'.isUpToDate id ((hsame.hasProject_iff id).2 hproject) (Set.notMem_empty id)
    rw [outcome_congr (hsame.sameProject id hproject)] at houtcome'
    obtain rfl := Except.ok.inj (houtcome.symm.trans houtcome')
    have hbytes := hpublished.bytesAt_eq hpublished'
    rwa [Disk.resolve_congr hworking] at hbytes

/-- Two changes of the output that both bring it up to date leave the same files. -/
theorem IsSettled.bytesAt_eq (h : site.IsSettled limits ∅ d₁) (h' : site.IsSettled limits ∅ d₂)
    (hapart : site.IsApart d) (hcontent : d.HasDirectory site.settings.contentDir)
    (hids : ∀ id ∈ ids, site.content.HasProject d id)
    (hchanges : Changes (site.outputFiles d ids) d d₁)
    (hchanges' : Changes (site.outputFiles d ids) d d₂) (l : Location) :
    d₂.bytesAt l = d₁.bytesAt l := by
  have helsewhere := hapart.outputFiles_subset fun id hid => (hids id hid).isName
  have hsame := hapart.sameContent hcontent (hchanges.mono helsewhere) h.apart.tree
  have hsame' := hapart.sameContent hcontent (hchanges'.mono helsewhere) h'.apart.tree
  by_cases hl : l ∈ site.outputFiles d ids
  · refine h.bytesAt_output h' (hsame.symm.trans hsame')
      (hchanges'.working.trans hchanges.working.symm)
      (fun id hid => (hsame.hasProject_iff id).2 (hids id hid)) (?_ : l ∈ site.outputFiles d₁ ids)
    rwa [outputFiles_congr hchanges.working]
  · rw [hchanges.bytesAt hl, hchanges'.bytesAt hl]

/-! ## Rebuilds that are done -/

/-- Where the cards of the index are made, the paths of pages are not too long. -/
theorem fits_page_of_cards {cards : List Card} (h : site.IsApart d)
    (hpages : d.HasDirectory site.pagesDir) (hids : site.projects d = .ok ids)
    (hcards : site.cardsOf limits d ids = .ok cards) (hid : id ∈ ids) :
    Disk.Fits site.pagesDir (id ++ ".json".toList) := by
  have hproject := (Content.mem_projects h.tree (mapError_eq_ok.1 hids) hid).2
  have hnull : (id ++ ".json".toList).contains '\x00' = false := by
    rw [List.contains_append, hproject.contains_null]
    decide
  obtain ⟨found, hfound, -⟩ := cardsOf_eq_ok_iff.1 hcards
  obtain ⟨card, -, hcard⟩ := exists_mem_of_forall₂ hfound hid
  obtain ⟨isFile, hfile⟩ : ∃ isFile, d.isFile (site.pagePath id) = .ok isFile :=
    (cardOf?_eq_ok_iff.1 hcard).elim (fun hnone => ⟨_, hnone.1⟩) fun hsome => ⟨_, hsome.1⟩
  exact Disk.fits_of_isFile hpages (isName_pageFile hproject.isName) hnull hfile

/-- Where a rebuild is done, nothing is in the way of a build, if no directory stands in place
    of a page. -/
theorem IsSettled.isClear_of_rebuild (h : site.IsSettled limits stale d)
    (hrebuild : site.rebuild limits id d = .ok page d')
    (hfree : ∀ id, site.content.HasProject d id →
      d.get? (d.resolve (site.pagePath id)) ≠ some .directory) :
    ∃ ids, site.projects d = .ok ids ∧ site.IsClear d ids := by
  obtain ⟨hpage, d₁, hwrite, hindex⟩ := rebuild_eq_ok.1 hrebuild
  obtain ⟨hname, rfl⟩ := isName_of_buildPage hpage
  obtain ⟨hchanges, ht₁⟩ := (confined_writePage h.apart limits page).ok hwrite
  have h₁ := h.apart.of_changes hchanges ht₁
  have hpages : d₁.HasDirectory site.pagesDir := parent_pagePath site hname ▸
    (holds_of_writeRecord h.apart.tree hwrite).2
  obtain ⟨cards, hcards, hholds, -⟩ := holds_of_writeIndex h₁ hindex
  obtain ⟨ids, hids₁, hcards⟩ := cards_eq_ok_iff.1 hcards
  -- The index has listed the projects, and can do so before the page is written.
  have hids : site.projects d = .ok ids := by
    have hsame : site.content.SameDirectory d d₁ := sameDirectory_of_publish h.apart h.hasContent
      h.hasOutput (isOutcome_of_outcome hname (outcome_eq_page_iff.2 hpage)) hwrite
    exact mapError_eq_ok.2 (hsame.symm.projects_eq_ok (mapError_eq_ok.1 hids₁))
  obtain ⟨text, -, hread⟩ := hholds
  obtain ⟨hlocate, hbytes⟩ := Disk.read_eq_ok_iff.1 hread
  refine ⟨ids, hids, h.apart, h.hasOutput, Disk.fits_of_locate hpages.1 isName_pagesDir,
    fun id hid => fits_page_of_cards h₁ hpages hids₁ hcards hid,
    Disk.fits_of_locate hlocate isName_indexFile, ?_, fun id hid => ?_, fun hdirectory => ?_⟩
  · -- The directory of the pages was made, so no file was in its place.
    rw [← hchanges.bytesAt fun hmem => resolve_pagePath_ne_pagesDir hname
      (Set.mem_singleton_iff.1 hmem).symm, ← hchanges.resolve, Disk.bytesAt, hpages.2]
  · exact hfree id (Content.mem_projects h.apart.tree (mapError_eq_ok.1 hids) hid).2
  · -- The index was written, so no directory was in its place.
    have hthere := ((confined_rebuild h.apart limits _).ok hrebuild).1.directory _ hdirectory
    obtain ⟨modified, hget⟩ := Disk.bytesAt_eq_some_iff.1 hbytes
    rw [((confined_rebuild h.apart limits _).ok hrebuild).1.resolve, hthere] at hget
    cases hget

/-- Where a rebuild is done that makes all up to date, the directories of a project with a page
    are not nested too deeply for the index. -/
theorem IsSettled.admits_of_rebuild {other : Text} {page' : Page}
    (h : site.IsSettled limits {id} d) (hrebuild : site.rebuild limits id d = .ok page d')
    (hother : site.content.HasProject d other)
    (hpage' : site.outcome limits.lax d other = .ok (.inl page')) :
    limits.index.Admits (d.depthBelow (site.content.directory.child other)) := by
  obtain ⟨hpage, d₁, hwrite, hindex⟩ := rebuild_eq_ok.1 hrebuild
  obtain ⟨hname, rfl⟩ := isName_of_buildPage hpage
  have h₁ := leftBy_of_ok hwrite ▸ h.leftBy_writePage hpage
  have hsame := leftBy_of_ok hwrite ▸ h.apart.sameContent_writePage h.hasContent limits hname
  have hother₁ := (hsame.hasProject_iff other).2 hother
  have hall : ∀ id, site.content.HasProject d₁ id → site.IsUpToDate limits d₁ id :=
    fun id hid => h.isUpToDate_of_notMem hpage hwrite hid fun hmem => hmem.2 hmem.1
  -- The card of the project is in the index, so its metadata was read for it.
  obtain ⟨cards, hcards, -⟩ := writeIndex_eq_ok.1 hindex
  obtain ⟨card, hcard, hshown⟩ := (AreCards.of_cards h₁.apart hall hcards).card other page' hother₁
    ((outcome_congr (hsame.sameProject other hother)).trans hpage')
  obtain rfl : card.id = other := (Card.of_ofProject? hshown).1.trans
    (Content.id_of_project (project_of_buildPage (outcome_eq_page_iff.1 hpage')).1).2
  obtain ⟨-, -, -, -, project, hread, -⟩ := exists_project_of_mem_cards hcards hcard
  have hdepth : d₁.depthBelow (site.content.directory.child card.id) =
      d.depthBelow (site.content.directory.child card.id) :=
    (sameDirectory_of_publish h.apart h.hasContent h.hasOutput
      (isOutcome_of_outcome hname (outcome_eq_page_iff.2 hpage)) hwrite).depthBelow_eq
        hother hother₁
  exact hdepth ▸ (Content.project_eq_ok_iff_lax.1 hread).2

/-! ## The agreement -/

/-- After a build, one project is edited and rebuilt. A build in place of the rebuild leaves
    the same files, and it is done unless a directory stands in place of a page or directories
    below a project are nested too deeply for its page. -/
theorem rebuild_agrees_with_build (h : site.IsApart d) (hlead : site.LeadsToOutput d)
    (hreach : site.LeadsToContent d) (hbuild : site.build limits d = .ok report d₁)
    (hedit : site.IsEditedBelow id d₁ d₂) (hlead₂ : site.LeadsToOutput d₂)
    (hrebuild : site.rebuild limits id d₂ = .ok page d₃) :
    (∀ report₄ d₄, site.build limits d₂ = .ok report₄ d₄ → ∀ l, d₄.bytesAt l = d₃.bytesAt l) ∧
      ((∀ id, site.content.HasProject d₂ id →
          d₂.get? (d₂.resolve (site.pagePath id)) ≠ some .directory ∧
            limits.page.Admits (d₂.depthBelow (site.content.directory.child id))) →
        ∃ report₄ d₄, site.build limits d₂ = .ok report₄ d₄) := by
  have hpage := (rebuild_eq_ok.1 hrebuild).1
  have hproject := Content.hasProject_of_project (project_of_buildPage hpage).1
  -- The edit makes one project stale, and the rebuild makes it up to date again.
  have h₂ := isSettled_of_edit h hlead hreach hbuild hedit hlead₂ hproject
  have h₃ : site.IsSettled limits ∅ d₃ := Set.sdiff_self ▸ h₂.rebuild hrebuild
  obtain ⟨hchanges₃, ht₃⟩ := (confined_rebuild h₂.apart limits id).ok hrebuild
  constructor
  · -- So does a build.
    intro report₄ d₄ hbuild₄
    have h₄ := isSettled_of_build h₂.apart (.of_hasDirectory h₂.hasOutput) h₂.hasContent hbuild₄
    obtain ⟨outcomes, d₀, m, -, -⟩ := midway_of_build h₂.apart hbuild₄
    have hids := (of_outcomes m.found).1
    have hprojects := mapError_eq_ok.1 hids
    have hid := Content.mem_of_projects h₂.apart.tree h₂.hasContent hprojects hproject
    refine h₃.bytesAt_eq h₄ h₂.apart h₂.hasContent
      (fun id hid => (Content.mem_projects h₂.apart.tree hprojects hid).2)
      (hchanges₃.mono (outputFiles_mono (List.cons_subset.2 ⟨hid, List.nil_subset _⟩)))
      ((confined_build h₂.apart limits hids).ok hbuild₄).1
  · -- All projects are fit once they are up to date, and their files are those from before.
    intro hfree
    obtain ⟨ids, hids, hclear⟩ :=
      h₂.isClear_of_rebuild hrebuild fun id hproject => (hfree id hproject).1
    have hname : ∀ other ∈ [id], IsName other := List.forall_mem_singleton.2 hproject.isName
    have hsame := h₂.apart.sameContent h₂.hasContent
      (hchanges₃.mono (h₂.apart.outputFiles_subset hname)) ht₃
    refine hclear.exists_build (concurrency_of_buildPage hpage) hids fun other hother => ?_
    have hother := (Content.mem_projects h₂.apart.tree (mapError_eq_ok.1 hids) hother).2
    have hfit : site.IsFit limits.lax d₂ other :=
      (isFit_congr (hsame.sameProject other hother) fun hlimit =>
        (hlimit.elim (absurd rfl) (absurd rfl))).1
          (h₃.isFit ((hsame.hasProject_iff other).2 hother))
    exact hfit.of_lax (hfree other hother).2 fun page hpage =>
      h₂.admits_of_rebuild hrebuild hother hpage

/-- The disk of a site that is built, with its project given another name. -/
def renamed : Disk := (leftBy ((sample "/out").build .standard unbuilt)).put
  (["content", "a", "project.json"].map (·.toList))
  (.file (Encoding.encodeUtf8 "\x7b\"name\": \"B\"\x7d".toList) 0)

theorem rebuild_agrees_with_build_renamed : (sample "/out").IsApart unbuilt ∧
    (sample "/out").LeadsToOutput unbuilt ∧ (sample "/out").LeadsToContent unbuilt ∧
    ∃ report d₁ page d₃, (sample "/out").build .standard unbuilt = .ok report d₁ ∧
      (sample "/out").IsEditedBelow "a".toList d₁ renamed ∧
      (sample "/out").LeadsToOutput renamed ∧
      (sample "/out").rebuild .standard "a".toList renamed = .ok page d₃ ∧
      ∃ report₄ d₄, (sample "/out").build .standard renamed = .ok report₄ d₄ ∧
        ∀ l, d₄.bytesAt l = d₃.bytesAt l := by
  have hapart : (sample "/out").IsApart unbuilt := by decide +kernel
  have hlead : (sample "/out").LeadsToOutput unbuilt := by decide +kernel
  have hreach : (sample "/out").LeadsToContent unbuilt := by decide +kernel
  have hread : (answerOf? ((sample "/out").build .standard unbuilt)).isSome ∧ renamed.IsTree ∧
      (sample "/out").LeadsToOutput renamed ∧
      (answerOf? ((sample "/out").rebuild .standard "a".toList renamed)).isSome ∧
      renamed.HasDirectory (sample "/out").settings.contentDir ∧
      (sample "/out").content.projects renamed = .ok ["a".toList] ∧
      renamed.get? (renamed.resolve ((sample "/out").pagePath "a".toList)) ≠ some .directory ∧
      Limits.standard.page.Admits
        (renamed.depthBelow ((sample "/out").content.directory.child "a".toList)) := by
    decide +kernel
  obtain ⟨hfirst, htree, hlead', hsecond, hcontent, hids, hfree⟩ := hread
  obtain ⟨report, hreport⟩ := Option.isSome_iff_exists.1 hfirst
  obtain ⟨page, hpage⟩ := Option.isSome_iff_exists.1 hsecond
  have hbuild := eq_ok_of_answerOf? hreport
  have hrebuild := eq_ok_of_answerOf? hpage
  have hedit : (sample "/out").IsEditedBelow "a".toList
      (leftBy ((sample "/out").build .standard unbuilt)) renamed := by
    refine ⟨htree, rfl, fun l hl => Disk.get?_put_of_ne _ _ ?_⟩
    rintro rfl
    exact hl (by decide +kernel)
  obtain ⟨hagree, hdone⟩ :=
    rebuild_agrees_with_build hapart hlead hreach hbuild hedit hlead' hrebuild
  obtain ⟨report₄, d₄, hbuild₄⟩ := hdone fun id hproject => by
    obtain rfl := List.mem_singleton.1 (Content.mem_of_projects htree hcontent hids hproject)
    exact hfree
  exact ⟨hapart, hlead, hreach, report, _, page, _, hbuild, hedit, hlead', hrebuild, report₄, d₄,
    hbuild₄, hagree report₄ d₄ hbuild₄⟩

/-! ## A path through a directory that is missing -/

/-- A site whose output is reached through a directory that may be missing. -/
def detour : Site := sample "/x/../out"

/-- The disk after a build that has not found the page of a project that cannot be built, with
    another project added. -/
def joined : Disk := ((leftBy (detour.build .standard strayed)).put
    (["content", "c"].map (·.toList)) .directory).put
  (["content", "c", "project.json"].map (·.toList))
  (.file (Encoding.encodeUtf8 "\x7b\"name\": \"C\"\x7d".toList) 0)

/-- The disk with the page of the new project written. -/
def joinedRebuilt : Disk :=
  leftBy ((asking (detour.buildPage .standard · "c".toList) >>= detour.writePage .standard) joined)

/-- What becomes of both projects. -/
def joinedOutcomes : List (Text × Outcome) :=
  ((["b".toList, "c".toList].mapM fun id => do
    return (id, ← detour.outcome .standard joined id)).toOption).getD []

/-- The disk when both are published. -/
def joinedBuilt : Disk := leftBy (joinedOutcomes.forM (detour.publish .standard) joined)

/-- The index has the new project only, whether the page of the other is there or not. -/
theorem writeIndex_joined : ∃ after after',
    detour.writeIndex .standard joinedRebuilt = .ok () after ∧
    detour.writeIndex .standard joinedBuilt = .ok () after' := by
  have hindex : ∀ d ∈ [joinedRebuilt, joinedBuilt],
      d.isDirectory detour.content.directory = .ok true ∧
        detour.content.projectsAmong d ((d.children detour.content.directory).map (·.1)) =
          .ok ["c".toList, "b".toList] ∧
        detour.cardsOf .standard d ["b".toList, "c".toList] =
          .ok [⟨"c".toList, .ofText "C".toList, none, none⟩] ∧
        answerOf? (writeRecord detour.indexPath
          (Card.indexRecord [⟨"c".toList, .ofText "C".toList, none, none⟩])
            Limits.standard.parents d) = some () := by
    decide +kernel
  have hwrite : ∀ d ∈ [joinedRebuilt, joinedBuilt],
      ∃ after, detour.writeIndex .standard d = .ok () after := by
    intro d hd
    obtain ⟨hthere, hamong, hcards, hwrite⟩ := hindex d hd
    have hids := projects_eq_pair hthere hamong (by decide)
    exact ⟨_, writeIndex_eq_ok.2
      ⟨_, cards_eq_ok_iff.2 ⟨_, hids, hcards⟩, eq_ok_of_answerOf? hwrite⟩⟩
  obtain ⟨after, hafter⟩ := hwrite joinedRebuilt (by simp)
  obtain ⟨after', hafter'⟩ := hwrite joinedBuilt (by simp)
  exact ⟨after, after', hafter, hafter'⟩

/-- The page of the project that cannot be built has outlived the first build, and outlives the
    rebuild of the new project. A build takes it away. -/
theorem rebuild_keeps_stale_page : detour.IsApart strayed ∧ detour.LeadsToContent strayed ∧
    ∃ report d₁ page d₃ report₄ d₄, detour.build .standard strayed = .ok report d₁ ∧
      detour.IsEditedBelow "c".toList d₁ joined ∧
      detour.rebuild .standard "c".toList joined = .ok page d₃ ∧
      detour.build .standard joined = .ok report₄ d₄ ∧
      d₃.bytesAt (d₃.resolve (detour.pagePath "b".toList)) ≠ none ∧
      d₄.bytesAt (d₄.resolve (detour.pagePath "b".toList)) = none := by
  have hread : (answerOf? (detour.build .standard strayed)).isSome ∧ joined.IsTree ∧
      answerOf? ((asking (detour.buildPage .standard · "c".toList) >>=
        detour.writePage .standard) joined) = some () ∧
      joined.isDirectory detour.content.directory = .ok true ∧
      detour.content.projectsAmong joined
        ((joined.children detour.content.directory).map (·.1)) = .ok ["c".toList, "b".toList] ∧
      (["b".toList, "c".toList].mapM fun id => do
        return (id, ← detour.outcome .standard joined id)).toOption.isSome ∧
      answerOf? (joinedOutcomes.forM (detour.publish .standard) joined) = some () ∧
      detour.IsApart joinedRebuilt ∧ detour.IsApart joinedBuilt ∧
      joinedRebuilt.bytesAt (joinedRebuilt.resolve (detour.pagePath "b".toList)) ≠ none ∧
      joinedBuilt.bytesAt (joinedBuilt.resolve (detour.pagePath "b".toList)) = none := by
    decide +kernel
  obtain ⟨hfirst, htree, hstart, hthere, hamong, houtcomes, hpublish, hrebuilt, hbuilt, hstale,
    hgone⟩ := hread
  obtain ⟨report, hreport⟩ := Option.isSome_iff_exists.1 hfirst
  obtain ⟨d₃, d₄, hindex, hindex'⟩ := writeIndex_joined
  obtain ⟨page, d₀, hasked, hwrite⟩ := Publishing.bind_eq_ok.1 (eq_ok_of_answerOf? hstart)
  obtain ⟨hpage, rfl⟩ := Publishing.asking_eq_ok.1 hasked
  have hrebuild : detour.rebuild .standard "c".toList joined = .ok page d₃ :=
    rebuild_eq_ok.2 ⟨hpage, joinedRebuilt, hwrite, hindex⟩
  have hids := projects_eq_pair hthere hamong (by decide)
  have hbuild : detour.build .standard joined = .ok (.of joinedOutcomes) d₄ :=
    build_eq_ok.2 ⟨joinedOutcomes, joinedBuilt, (outcomes_eq_mapM .standard (by decide) hids).trans
      (eq_ok_of_isSome_toOption houtcomes []), eq_ok_of_answerOf? hpublish, hindex', rfl⟩
  have hedit : detour.IsEditedBelow "c".toList
      (leftBy (detour.build .standard strayed)) joined := by
    refine ⟨htree, rfl, fun l hl => ?_⟩
    rw [joined, Disk.get?_put_of_ne, Disk.get?_put_of_ne] <;> rintro rfl <;>
      exact hl (by decide +kernel)
  have hsame : ∀ {d after}, detour.IsApart d → detour.writeIndex .standard d = .ok () after →
      after.bytesAt (after.resolve (detour.pagePath "b".toList)) =
        d.bytesAt (d.resolve (detour.pagePath "b".toList)) := by
    intro d after h hindex
    obtain ⟨hchanges, -⟩ := (confined_writeIndex h .standard).ok hindex
    rw [hchanges.resolve, hchanges.bytesAt]
    exact resolve_pagePath_ne_indexPath (by decide)
  refine ⟨by decide +kernel, by decide +kernel, report, _, page, d₃, _, d₄,
    eq_ok_of_answerOf? hreport, hedit, hrebuild, hbuild, ?_, ?_⟩
  · rwa [hsame hrebuilt hindex]
  · rwa [hsame hbuilt hindex']

end Marginalia.Site
