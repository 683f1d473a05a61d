import Marginalia.Proofs.Site.UpToDate

/-!
# Rebuilds that fail

A rebuild first makes the page of its project, then writes it, and then makes the index
anew from the metadata of all projects. If the page cannot be made, nothing is changed.
What comes up later is, besides failures of the disk, half a surrogate pair in what is to
be written, or the metadata of a project with a page that cannot be read
(`failure_of_writeIndex`). All that is reported of a project comes up before
(`eq_of_report?`).

* `rebuild_all_or_nothing`: a rebuild that fails leaves the disk as it was, but for these
  cases;
* `IsApart.eq_of_rebuild`: in a site whose output is apart from its content, the metadata
  that must be readable is that of the projects as it is before;
* `failed_rebuild_writes_page`: metadata that is not in UTF-8 fails a rebuild of another
  project whose page is written already.
-/

namespace Marginalia.Site

open Disk (leftBy answerOf? failureOf? eq_ok_of_answerOf? eq_error_of_failureOf?)

variable {site : Site} {limits : Limits} {d d' d₁ : Disk} {id : Text} {page : Page} {path : Path}
  {record : Json} {parents : Option Nat} {failure : Failure} {cause : Content.Failure}

/-! ## Failures while writing -/

/-- Whether a failure may come up while something is written. -/
def Failure.breaksOff : Failure → Bool
  | .unencodable | .disk _ => true
  | .content _ | .page _ | .noCapacity _ | .negativeCapacity | .stalled | .extraction _ => false

/-- For the index, the metadata of a project with a page cannot be read. -/
def HasUnread (site : Site) (limits : Limits) (d : Disk) (cause : Content.Failure) : Prop :=
  (∀ e, cause ≠ .invalid e) ∧ ∃ ids, site.projects d = .ok ids ∧ ∃ id ∈ ids,
    d.isFile (site.pagePath id) = .ok true ∧
      site.content.project d id limits.index = .error cause

theorem HasUnread.not_hasReadableMetadata (h : site.HasUnread limits d cause) :
    ¬site.HasReadableMetadata limits d := by
  obtain ⟨hcause, ids, hids, id, hid, hfile, hproject⟩ := h
  intro hreadable
  obtain ⟨e, he⟩ := hreadable ids hids id hid hfile cause hproject
  exact hcause e he

/-- A page that cannot be made is not for a reason to do with writing. -/
theorem breaksOff_of_buildPage (h : site.buildPage limits d id = .error failure) :
    failure.breaksOff = false := by
  rcases bind_eq_error.1 h with h | ⟨project, -, h⟩
  · obtain ⟨cause, -, rfl⟩ := mapError_eq_error.1 h
    rfl
  rcases bind_eq_error.1 h with h | ⟨text, -, h⟩
  · obtain ⟨cause, -, rfl⟩ := mapError_eq_error.1 h
    rfl
  rcases bind_eq_error.1 h with h | ⟨files, -, h⟩
  · obtain ⟨cause, -, rfl⟩ := mapError_eq_error.1 h
    rfl
  rcases bind_eq_error.1 h with h | ⟨shown, -, h⟩
  · rcases bind_eq_error.1 h with h | ⟨extractions, -, h⟩
    · obtain ⟨capacity, -, rfl⟩ := mapError_eq_error.1 h
      rfl
    · obtain ⟨⟨file, extraction⟩, -, h⟩ := exists_of_mapM_eq_error h
      dsimp only at h
      rw [shownFile.eq_def] at h
      split at h
      · cases h
      · cases h
        rfl
      · cases h
        rfl
  · cases h

/-- Only the disk, or half a surrogate pair, keeps a record from being written. -/
theorem failure_of_writeRecord (h : writeRecord path record parents d = .error failure d') :
    (∃ e, failure = .disk e) ∨ failure = .unencodable ∧ ¬record.IsWhole := by
  have hdisk : ∀ {change : EStateM Disk.Error Disk Unit} {d : Disk},
      changing change d = .error failure d' → ∃ e, failure = .disk e := fun h =>
    (Publishing.changing_eq_error.1 h).imp fun _ h => h.2
  rcases Publishing.bind_eq_error.1 h with h | ⟨_, d₁, -, h⟩
  · exact .inl (hdisk h)
  cases htext : record.write? with
  | some text =>
    rw [htext] at h
    exact .inl (hdisk h)
  | none =>
    rw [htext] at h
    rcases Publishing.bind_eq_error.1 h with h | ⟨_, d₂, -, h⟩
    · exact .inl (hdisk h)
    · obtain rfl := (EStateM.Result.error.inj h).1
      exact .inr ⟨rfl, fun hwhole => Json.write?_ne_none_iff.2 hwhole htext⟩

/-- What keeps the index from being written is the disk, or the metadata of a project with
    a page. If it cannot be read, nothing is changed. -/
theorem failure_of_writeIndex (h : site.writeIndex limits d = .error failure d') :
    (∃ e, failure = .disk e) ∨ (failure = .unencodable ∧ ¬site.HasWholeMetadata limits d) ∨
      ∃ cause, failure = .content cause ∧ site.HasUnread limits d cause ∧ d' = d := by
  rcases Publishing.bind_eq_error.1 h with h | ⟨cards, d₀, hasked, hrecord⟩
  · obtain ⟨h, rfl⟩ := Publishing.asking_eq_error.1 h
    rcases cards_eq_error h with h | ⟨ids, hids, id, hid, h⟩
    · obtain ⟨e, -, rfl⟩ := mapError_eq_error.1 h
      exact .inl ⟨e, rfl⟩
    rcases cardOf?_eq_error h with ⟨e, rfl, -⟩ | ⟨rfl, hfile, project, hproject, hnone⟩ |
      ⟨cause, rfl, hfile, hproject, hcause⟩
    · exact .inl ⟨e, rfl⟩
    · refine .inr (.inl ⟨rfl, fun hwhole => ?_⟩)
      obtain ⟨card, hcard, -⟩ :=
        hasWholeCard_of_isWhole (hwhole ids hids id hid hfile project hproject)
      cases hnone.symm.trans hcard
    · exact .inr (.inr ⟨cause, rfl, ⟨hcause, ids, hids, id, hid, hfile, hproject⟩, rfl⟩)
  · obtain ⟨hcards, rfl⟩ := Publishing.asking_eq_ok.1 hasked
    rcases failure_of_writeRecord hrecord with hdisk | ⟨rfl, hhalf⟩
    · exact .inl hdisk
    · exact .inr (.inl ⟨rfl, fun hwhole => hhalf (isWhole_of_cards hwhole hcards)⟩)

/-! ## All or nothing -/

/-- A rebuild that does not break off has changed nothing, or has written its page and met
    with metadata that cannot be read. -/
theorem exists_unread_of_rebuild (h : site.rebuild limits id d = .error failure d')
    (hunbroken : failure.breaksOff = false) : d' = d ∨ ∃ page cause,
      site.buildPage limits d id = .ok page ∧ site.writePage limits page d = .ok () d' ∧
        failure = .content cause ∧ site.HasUnread limits d' cause := by
  rcases rebuild_eq_error h with ⟨-, rfl⟩ | ⟨page, hpage, hwrite | ⟨d₁, hwrite, hindex⟩⟩
  · exact .inl rfl
  · rcases failure_of_writeRecord hwrite with ⟨e, rfl⟩ | ⟨rfl, -⟩ <;> cases hunbroken
  · -- The page is written, and the index is not.
    rcases failure_of_writeIndex hindex with ⟨e, rfl⟩ | ⟨rfl, -⟩ |
      ⟨cause, hfailure, hunread, rfl⟩
    · cases hunbroken
    · cases hunbroken
    · exact .inr ⟨page, cause, hpage, hwrite, hfailure, hunread⟩

/-- What is reported of a project is found before anything is written. -/
theorem eq_of_report? (h : site.rebuild limits id d = .error failure d')
    (hreport : failure.report?.isSome) : d' = d := by
  have hunbroken : failure.breaksOff = false := by
    cases failure with
    | page | content => rfl
    | noCapacity | negativeCapacity | stalled | extraction | disk | unencodable => cases hreport
  refine (exists_unread_of_rebuild h hunbroken).resolve_right ?_
  rintro ⟨page, cause, -, -, rfl, hcause, -⟩
  cases cause with
  | invalid e => exact hcause e rfl
  | undecodable | beyondLimit | tooNested | disk => cases hreport

/-- What cannot be written of a rebuild is half a surrogate pair, on the page or in the
    metadata of a project with a page. -/
theorem exists_half_of_rebuild (h : site.rebuild limits id d = .error .unencodable d') :
    ∃ page, site.buildPage limits d id = .ok page ∧ (¬page.record.IsWhole ∨
      ∃ d₁, site.writePage limits page d = .ok () d₁ ∧ ¬site.HasWholeMetadata limits d₁) := by
  rcases rebuild_eq_error h with ⟨hpage, -⟩ | ⟨page, hpage, hwrite | ⟨d₁, hwrite, hindex⟩⟩
  · cases breaksOff_of_buildPage hpage
  · rcases failure_of_writeRecord hwrite with ⟨e, he⟩ | ⟨-, hhalf⟩
    · cases he
    · exact ⟨page, hpage, .inl hhalf⟩
  · rcases failure_of_writeIndex hindex with ⟨e, he⟩ | ⟨-, hhalf⟩ | ⟨cause, hcause, -⟩
    · cases he
    · exact ⟨page, hpage, .inr ⟨d₁, hwrite, hhalf⟩⟩
    · cases hcause

/-- A rebuild that fails leaves the disk as it was if the failure is one that is reported
    of a project. So does any other failure that does not break off writing, if, with the
    page written, the metadata of all projects with a page can be read. And what breaks off
    writing, besides the disk, is half a surrogate pair on the page or in that metadata. -/
theorem rebuild_all_or_nothing (h : site.rebuild limits id d = .error failure d') :
    (failure.report?.isSome → d' = d) ∧
      (failure.breaksOff = false → (∀ page d₁, site.buildPage limits d id = .ok page →
        site.writePage limits page d = .ok () d₁ → site.HasReadableMetadata limits d₁) →
          d' = d) ∧
      (failure = .unencodable →
        ∃ page, site.buildPage limits d id = .ok page ∧ (¬page.record.IsWhole ∨
          ∃ d₁, site.writePage limits page d = .ok () d₁ ∧
            ¬site.HasWholeMetadata limits d₁)) := by
  refine ⟨eq_of_report? h, fun hunbroken hreadable => ?_, ?_⟩
  · refine (exists_unread_of_rebuild h hunbroken).resolve_right ?_
    rintro ⟨page, cause, hpage, hwrite, -, hunread⟩
    exact hunread.not_hasReadableMetadata (hreadable page d' hpage hwrite)
  · rintro rfl
    exact exists_half_of_rebuild h

/-- A project whose metadata is not in UTF-8 is not rebuilt, and nothing is written. -/
theorem rebuild_all_or_nothing_garbled : ∃ after,
    (sample "/out").rebuild .standard "b".toList garbled = .error (.content .undecodable) after ∧
      (∀ page d₁, (sample "/out").buildPage .standard garbled "b".toList = .ok page →
        (sample "/out").writePage .standard page garbled = .ok () d₁ →
          (sample "/out").HasReadableMetadata .standard d₁) ∧ after = garbled := by
  have hfails : failureOf? ((sample "/out").rebuild .standard "b".toList garbled) =
      some (.content .undecodable) ∧
      ((sample "/out").buildPage .standard garbled "b".toList).toOption.isSome = false := by
    decide +kernel
  obtain ⟨hrebuild, hpage⟩ := hfails
  have hreadable : ∀ page d₁, (sample "/out").buildPage .standard garbled "b".toList = .ok page →
      (sample "/out").writePage .standard page garbled = .ok () d₁ →
        (sample "/out").HasReadableMetadata .standard d₁ := by
    intro page d₁ hbuilt
    rw [hbuilt] at hpage
    cases hpage
  have hrebuild := eq_error_of_failureOf? hrebuild
  exact ⟨_, hrebuild, hreadable, (rebuild_all_or_nothing hrebuild).2.1 rfl hreadable⟩

/-- The disk with the page of the other project written. -/
def smudged : Disk :=
  leftBy ((asking ((sample "/out").buildPage .standard · "a".toList) >>=
    (sample "/out").writePage .standard) garbled)

/-- The metadata of one project is not in UTF-8, and it has had a page. A rebuild of the
    other fails at it, when the page of this one is written already. -/
theorem failed_rebuild_writes_page : (sample "/out").IsApart garbled ∧
    (sample "/out").LeadsToOutput garbled ∧
    garbled.bytesAt (garbled.resolve ((sample "/out").pagePath "a".toList)) = none ∧
    ∃ after, (sample "/out").rebuild .standard "a".toList garbled =
      .error (.content .undecodable) after ∧
      after.bytesAt (after.resolve ((sample "/out").pagePath "a".toList)) ≠ none := by
  have hread : answerOf? ((asking ((sample "/out").buildPage .standard · "a".toList) >>=
        (sample "/out").writePage .standard) garbled) = some () ∧
      smudged.isDirectory (sample "/out").content.directory = .ok true ∧
      (sample "/out").content.projectsAmong smudged
        ((smudged.children (sample "/out").content.directory).map (·.1)) =
          .ok ["b".toList, "a".toList] ∧
      (sample "/out").cardsOf .standard smudged ["a".toList, "b".toList] =
        .error (.content .undecodable) := by
    decide +kernel
  obtain ⟨hstart, hthere, hamong, hcards⟩ := hread
  obtain ⟨page, d₀, hasked, hwrite⟩ := Publishing.bind_eq_ok.1 (eq_ok_of_answerOf? hstart)
  obtain ⟨hpage, rfl⟩ := Publishing.asking_eq_ok.1 hasked
  have hindex : (sample "/out").writeIndex .standard smudged =
      .error (.content .undecodable) smudged :=
    Publishing.bind_eq_error.2 (.inl (Publishing.asking_eq_error.2 ⟨bind_eq_error.2
      (.inr ⟨_, projects_eq_pair hthere hamong (by decide), hcards⟩), rfl⟩))
  have hrebuild : (sample "/out").rebuild .standard "a".toList garbled =
      .error (.content .undecodable) smudged :=
    Publishing.bind_eq_error.2 (.inr ⟨page, garbled, Publishing.asking_eq_ok.2 ⟨hpage, rfl⟩,
      Publishing.bind_eq_error.2 (.inr ⟨(), smudged, hwrite, Publishing.bind_eq_error.2
        (.inl hindex)⟩)⟩)
  exact ⟨by decide +kernel, by decide +kernel, by decide +kernel, smudged, hrebuild,
    by decide +kernel⟩

/-! ## Output apart from the content -/

/-- What cannot be read when the page is written could not be read before, if it is not for
    directories that are nested too deeply. -/
theorem IsApart.exists_unread (h : site.IsApart d) (hpage : site.buildPage limits d id = .ok page)
    (hwrite : site.writePage limits page d = .ok () d₁) (hunread : site.HasUnread limits d₁ cause)
    (hcause : cause ≠ .tooNested) : ∃ other, site.content.HasProject d other ∧
      (other = id ∨ d.bytesAt (d.resolve (site.pagePath other)) ≠ none) ∧
        ¬site.IsReadable limits.lax d other := by
  obtain ⟨hvalid, ids, hids, other, hother, hfile, hproject⟩ := hunread
  obtain ⟨hname, rfl⟩ := isName_of_buildPage hpage
  have hthere := Content.hasProject_of_project (project_of_buildPage hpage).1
  obtain ⟨hchanges, ht⟩ := (confined_writePage h limits page).ok hwrite
  have hsame := Disk.leftBy_of_ok hwrite ▸
    h.sameContent_writePage (hthere.hasDirectory.of_child hname) limits hname
  have hlisted := (Content.mem_projects ht (mapError_eq_ok.1 hids) hother).2
  have hproject' := (hsame.hasProject_iff other).1 hlisted
  refine ⟨other, hproject', ?_, fun hreadable => ?_⟩
  · -- Another page than the one that is written was there before.
    refine or_iff_not_imp_left.2 fun hne => ?_
    have hbytes := (Disk.isFile_eq_true_iff.1 hfile).2
    rwa [hchanges.resolve, hchanges.bytesAt] at hbytes
    exact fun hmem => hne ((resolve_pagePath_inj hproject'.isName hname).1 hmem)
  · have hlax := (site.content.project_lax d₁ other limits.index).eq_error hproject hcause
    rw [(hsame.sameProject other hproject').project_congr_lax] at hlax
    obtain ⟨e, he⟩ := hreadable cause hlax
    exact hvalid e he

/-- A rebuild that fails without breaking off leaves the disk as it was, if the metadata of
    the project and of the others with a page can be read, and their directories are not
    nested too deeply. -/
theorem IsApart.eq_of_rebuild (h : site.IsApart d)
    (hrebuild : site.rebuild limits id d = .error failure d')
    (hunbroken : failure.breaksOff = false) (hnested : ¬failure.IsTooNested)
    (hreadable : ∀ other, site.content.HasProject d other →
      (other = id ∨ d.bytesAt (d.resolve (site.pagePath other)) ≠ none) →
        site.IsReadable limits.lax d other) : d' = d := by
  refine (exists_unread_of_rebuild hrebuild hunbroken).resolve_right ?_
  rintro ⟨page, cause, hpage, hwrite, rfl, hunread⟩
  have hcause : cause ≠ .tooNested := fun hcause => hnested (congrArg Failure.content hcause)
  obtain ⟨other, hproject, hfile, hbad⟩ := h.exists_unread hpage hwrite hunread hcause
  exact hbad (hreadable other hproject hfile)

end Marginalia.Site
