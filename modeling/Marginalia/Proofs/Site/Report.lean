import Marginalia.Proofs.Site.Build
import Marginalia.Proofs.Site.Sample

/-!
# Reports of builds

What a build reports are the outcomes of the projects, taken apart: pages on one side,
problems on the other (`Report.tells_of`). When a build is done, the files of the site
agree with it (`build_as_reported`): there is a file for each page that was built and for
no other project, and the index has the cards of these pages, in their order.

The agreement needs a path that leads to the output directory, if that is there. A path
through a directory that is missing makes it only when something is written, and then the
page of a project that could not be built, which was not found there before, turns up
again (`build_keeps_stale_page`).
-/

namespace Marginalia.Site

open Disk (leftBy answerOf? eq_ok_of_answerOf?)

variable {site : Site} {limits : Limits} {d d₁ after : Disk} {id : Text} {page : Page}
  {report : Report}
  {outcomes : List (Text × Outcome)}

/-! ## Outcomes taken apart -/

/-- The pages among some outcomes. -/
def pagesOf (outcomes : List (Text × Outcome)) : List Page :=
  outcomes.filterMap fun (_, o) => o.getLeft?

/-- What is wrong with the other projects. -/
def problemsOf (outcomes : List (Text × Outcome)) : List (Text × String) :=
  outcomes.filterMap fun (id, o) => o.getRight?.map (id, ·)

/-- A list of what is found for some items comes in their order. -/
theorem sublist_filterMap {α β γ : Type} {f : α → Option β} {g : β → γ} {h : α → γ} {as : List α}
    (hf : ∀ a ∈ as, ∀ b ∈ f a, g b = h a) : ((as.filterMap f).map g).Sublist (as.map h) := by
  induction as with
  | nil => exact .slnil
  | cons a as ih =>
    obtain ⟨ha, has⟩ := List.forall_mem_cons.1 hf
    cases hfound : f a with
    | none =>
      rw [List.filterMap_cons_none hfound]
      exact (ih has).cons (h a)
    | some b =>
      rw [List.filterMap_cons_some hfound, List.map_cons, List.map_cons, ha b hfound]
      exact (ih has).cons_cons (h a)

/-- Each outcome is a page or a problem. -/
theorem length_pagesOf_add (outcomes : List (Text × Outcome)) :
    (pagesOf outcomes).length + (problemsOf outcomes).length = outcomes.length := by
  induction outcomes with
  | nil => rfl
  | cons o rest ih =>
    obtain ⟨id, page | message⟩ := o
    · change (page :: pagesOf rest).length + (problemsOf rest).length = _
      rw [List.length_cons, List.length_cons, Nat.succ_add, ih]
    · change (pagesOf rest).length + ((id, message) :: problemsOf rest).length = _
      rw [List.length_cons, List.length_cons, ← ih, Nat.add_assoc]

theorem mem_pagesOf_iff : page ∈ pagesOf outcomes ↔ ∃ id, (id, .inl page) ∈ outcomes := by
  simp [pagesOf, Sum.getLeft?_eq_some_iff]

theorem mem_problemsOf_iff {message : String} :
    (id, message) ∈ problemsOf outcomes ↔ (id, .inr message) ∈ outcomes := by
  simp [problemsOf, Sum.getRight?_eq_some_iff]

/-- The outcomes of a build are those of its projects. -/
theorem mem_outcomes_iff (houtcomes : site.outcomes limits d = .ok outcomes) {o : Outcome} :
    (id, o) ∈ outcomes ↔ id ∈ outcomes.map (·.1) ∧ site.outcome limits d id = .ok o := by
  obtain ⟨-, hall⟩ := of_outcomes houtcomes
  constructor
  · intro h
    exact ⟨List.mem_map_of_mem h, hall (id, o) h⟩
  · rintro ⟨hid, houtcome⟩
    obtain ⟨⟨_, o'⟩, hmem, rfl⟩ := List.mem_map.1 hid
    obtain rfl := Except.ok.inj ((hall _ hmem).symm.trans houtcome)
    exact hmem

/-! ## Reports -/

/-- A report on projects tells of the pages that were built and of what is wrong with the
    other projects. -/
structure Report.Tells (report : Report) (site : Site) (limits : Limits) (d : Disk)
    (ids : List Text) (pages : List Page) : Prop where
  mem_pages : ∀ page, page ∈ pages ↔
    page.project.id ∈ ids ∧ site.buildPage limits d page.project.id = .ok page
  pages_ascending : Text.Ascending (pages.map (·.project.id))
  mem_problems : ∀ id message, (id, message) ∈ report.problems ↔
    id ∈ ids ∧ site.outcome limits d id = .ok (.inr message)
  problems_ascending : Text.Ascending (report.problems.map (·.1))
  scanned : report.scanned = ids.length
  built : report.built = pages.length
  total : report.scanned = report.built + report.problems.length
  orphans : report.orphans = (pages.flatMap Page.orphans).length

theorem Report.of_eq (outcomes : List (Text × Outcome)) : Report.of outcomes =
    { scanned := outcomes.length
      built := (pagesOf outcomes).length
      orphans := ((pagesOf outcomes).flatMap Page.orphans).length
      problems := problemsOf outcomes } := rfl

theorem Report.tells_of (h : site.IsApart d) (houtcomes : site.outcomes limits d = .ok outcomes) :
    (Report.of outcomes).Tells site limits d (outcomes.map (·.1)) (pagesOf outcomes) := by
  obtain ⟨hascending, hknown⟩ := isOutcome_of_outcomes h houtcomes
  have hpage : ∀ o ∈ outcomes, ∀ page ∈ o.2.getLeft?, page.project.id = o.1 := fun o ho page hpage =>
    (hknown o ho).1.page page (Sum.getLeft?_eq_some_iff.1 hpage)
  have hproblem : ∀ o ∈ outcomes, ∀ problem ∈ o.2.getRight?.map (o.1, ·), problem.1 = o.1 := by
    intro o _ problem hproblem
    obtain ⟨message, -, rfl⟩ := Option.map_eq_some_iff.1 hproblem
    rfl
  rw [Report.of_eq]
  refine ⟨fun page => ?_, hascending.sublist (sublist_filterMap hpage), fun id message => ?_,
    hascending.sublist (sublist_filterMap hproblem), (List.length_map _).symm, rfl,
    (length_pagesOf_add outcomes).symm, rfl⟩
  · rw [mem_pagesOf_iff, ← outcome_eq_page_iff, ← mem_outcomes_iff houtcomes]
    refine ⟨fun ⟨id, hmem⟩ => ?_, fun hmem => ⟨_, hmem⟩⟩
    obtain rfl := (hknown _ hmem).1.page page rfl
    exact hmem
  · rw [← mem_outcomes_iff houtcomes]
    exact mem_problemsOf_iff

/-! ## The site and the report -/

/-- What is published of the projects stays when the index is written. -/
theorem Midway.isPublished_of_writeIndex (m : site.Midway limits d outcomes d₁)
    (h : site.IsApart d) (hlead : site.LeadsToOutput d)
    (hindex : site.writeIndex limits d₁ = .ok () after) :
    ∀ o ∈ outcomes, site.IsPublished after o := by
  intro o ho
  have hname := (m.isOutcome o ho).isName
  exact (m.isPublished h hlead o ho).of_changes ((confined_writeIndex m.apart limits).ok hindex).1
    (resolve_pagePath_ne_indexPath hname)

/-- The files of a site show pages of some of its projects, and the cards of these. -/
structure Shows (site : Site) (d : Disk) (ids : List Text) (pages : List Page)
    (cards : List Card) : Prop where
  holds_page : ∀ page ∈ pages, Holds d (site.pagePath page.project.id) page.record
  /-- There are no other pages of the projects. -/
  hasPage_iff : ∀ id ∈ ids, d.bytesAt (d.resolve (site.pagePath id)) ≠ none ↔
    ∃ page ∈ pages, page.project.id = id
  holds_index : Holds d site.indexPath (Card.indexRecord cards)
  ascending : Text.Ascending (cards.map (·.id))
  cards : List.Forall₂ (fun page card => card.id = page.project.id ∧
    card.name = page.project.name ∧ card.description = page.project.description) pages cards

theorem Midway.shows (m : site.Midway limits d outcomes d₁) (h : site.IsApart d)
    (hlead : site.LeadsToOutput d) (hindex : site.writeIndex limits d₁ = .ok () after) :
    ∃ cards, site.Shows after (outcomes.map (·.1)) (pagesOf outcomes) cards := by
  have htells := Report.tells_of h m.found
  have hpublished := m.isPublished_of_writeIndex h hlead hindex
  obtain ⟨cards, hcards, hholds, -⟩ := holds_of_writeIndex m.apart hindex
  have hshown : List.Forall₂ (fun page card => card.id = page.project.id ∧
      card.name = page.project.name ∧ card.description = page.project.description)
        (pagesOf outcomes) cards :=
    (m.forall₂_cards (m.isPublished h hlead) hcards).imp fun _ _ hcard => Card.of_ofProject? hcard
  refine ⟨cards, fun page hpage => ?_, fun id hid => ?_, hholds, ?_, hshown⟩
  · have hmem := (mem_outcomes_iff m.found).2
      (((htells.mem_pages page).1 hpage).imp_right outcome_eq_page_iff.2)
    exact hpublished _ hmem
  · obtain ⟨⟨id, o⟩, hmem, rfl⟩ := List.mem_map.1 hid
    have hthere := hpublished _ hmem
    cases o with
    | inl page =>
      obtain ⟨text, -, hbytes⟩ := Holds.bytesAt hthere
      rw [hbytes]
      have hid := (m.isOutcome _ hmem).page page rfl
      exact iff_of_true (Option.some_ne_none _) ⟨page, mem_pagesOf_iff.2 ⟨id, hmem⟩, hid⟩
    | inr message =>
      refine iff_of_false (absurd hthere) ?_
      rintro ⟨page, hpage, rfl⟩
      -- The outcome of a project that is built is its page.
      have hbuilt := outcome_eq_page_iff.2 ((htells.mem_pages page).1 hpage).2
      cases Except.ok.inj (((mem_outcomes_iff m.found).1 hmem).2.symm.trans hbuilt)
  · have hsame : cards.map (·.id) = (pagesOf outcomes).map (·.project.id) :=
      (List.forall₂_eq_eq_eq ▸ List.forall₂_map_left_iff.2 (List.forall₂_map_right_iff.2
        (hshown.imp fun _ _ hcard => hcard.1.symm)) : _ = _).symm
    exact hsame ▸ htells.pages_ascending

/-- After a build that is done, the page of a project stands in its file if it was built,
    and there is no such file if it was not. The index has the cards of the pages that were
    built, in ascending order, with what they show of them, and the report tells of the
    pages and of the other projects. -/
theorem build_as_reported (h : site.IsApart d) (hlead : site.LeadsToOutput d)
    (hbuild : site.build limits d = .ok report after) :
    ∃ ids pages cards, site.projects d = .ok ids ∧ Text.Ascending ids ∧
      report.Tells site limits d ids pages ∧ site.Shows after ids pages cards := by
  obtain ⟨outcomes, d₁, m, hindex, rfl⟩ := midway_of_build h hbuild
  obtain ⟨cards, hshows⟩ := m.shows h hlead hindex
  exact ⟨_, _, cards, (of_outcomes m.found).1, m.ascending, Report.tells_of h m.found, hshows⟩

/-! ## Pages of earlier builds -/

/-- A disk with a project that can be built and one that cannot, which has had a page. -/
def outdated : Disk := .ofFiles [("/content/a/project.json", "\x7b\"name\": \"A\"\x7d"),
  ("/content/b/project.json", "[]"), ("/out/projects/b.json", "\x7b\x7d")]

/-- What becomes of both projects. -/
def outdatedOutcomes : List (Text × Outcome) :=
  ((["a".toList, "b".toList].mapM fun id => do
    return (id, ← (sample "/out").outcome .standard outdated id)).toOption).getD []

/-- The disk when both are published. -/
def updated : Disk := leftBy (outdatedOutcomes.forM ((sample "/out").publish .standard) outdated)

theorem outcomes_outdated : (sample "/out").outcomes .standard outdated = .ok outdatedOutcomes ∧
    outdatedOutcomes.forM ((sample "/out").publish .standard) outdated = .ok () updated := by
  have hread : outdated.isDirectory (sample "/out").content.directory = .ok true ∧
      (sample "/out").content.projectsAmong outdated
        ((outdated.children (sample "/out").content.directory).map (·.1)) =
          .ok ["b".toList, "a".toList] ∧
      (["a".toList, "b".toList].mapM fun id => do
        return (id, ← (sample "/out").outcome .standard outdated id)).toOption.isSome ∧
      answerOf? (outdatedOutcomes.forM ((sample "/out").publish .standard) outdated) = some () := by
    decide +kernel
  obtain ⟨hthere, hamong, hsome, hpublish⟩ := hread
  have houtcomes := outcomes_eq_mapM .standard (by decide)
    (projects_eq_pair hthere hamong (by decide))
  exact ⟨houtcomes.trans (eq_ok_of_isSome_toOption hsome []), eq_ok_of_answerOf? hpublish⟩

theorem writeIndex_updated :
    ∃ after, (sample "/out").writeIndex .standard updated = .ok () after := by
  have hread : updated.isDirectory (sample "/out").content.directory = .ok true ∧
      (sample "/out").content.projectsAmong updated
        ((updated.children (sample "/out").content.directory).map (·.1)) =
          .ok ["b".toList, "a".toList] ∧
      (sample "/out").cardsOf .standard updated ["a".toList, "b".toList] =
        .ok [⟨"a".toList, .ofText "A".toList, none, none⟩] ∧
      answerOf? (writeRecord (sample "/out").indexPath
        (Card.indexRecord [⟨"a".toList, .ofText "A".toList, none, none⟩])
          Limits.standard.parents updated) = some () := by
    decide +kernel
  obtain ⟨hthere, hamong, hcards, hwrite⟩ := hread
  have hprojects := projects_eq_pair hthere hamong (by decide)
  exact ⟨_, Publishing.bind_eq_ok.2 ⟨_, updated, Publishing.asking_eq_ok.2
    ⟨cards_eq_ok_iff.2 ⟨_, hprojects, hcards⟩, rfl⟩, eq_ok_of_answerOf? hwrite⟩⟩

theorem build_as_reported_outdated : (sample "/out").IsApart outdated ∧
    (sample "/out").LeadsToOutput outdated ∧
    ∃ report after, (sample "/out").build .standard outdated = .ok report after ∧
      ∃ ids pages cards, (sample "/out").projects outdated = .ok ids ∧ Text.Ascending ids ∧
        report.Tells (sample "/out") .standard outdated ids pages ∧
        (sample "/out").Shows after ids pages cards := by
  have hapart : (sample "/out").IsApart outdated := by decide +kernel
  have hlead : (sample "/out").LeadsToOutput outdated := by decide +kernel
  obtain ⟨houtcomes, hpublish⟩ := outcomes_outdated
  obtain ⟨after, hindex⟩ := writeIndex_updated
  have hbuild : (sample "/out").build .standard outdated = .ok (.of outdatedOutcomes) after :=
    Publishing.bind_eq_ok.2 ⟨_, outdated, Publishing.asking_eq_ok.2 ⟨houtcomes, rfl⟩,
      Publishing.bind_eq_ok.2 ⟨(), updated, hpublish,
        Publishing.bind_eq_ok.2 ⟨(), after, hindex, rfl⟩⟩⟩
  exact ⟨hapart, hlead, _, _, hbuild, build_as_reported hapart hlead hbuild⟩

/-- A disk with a project that cannot be built, which has had a page. -/
def strayed : Disk :=
  .ofFiles [("/content/b/project.json", "[]"), ("/out/projects/b.json", "\x7b\x7d")]

/-- The path of the output directory goes up from a directory that is missing. The page
    of a project that cannot be built is not found there, so it is not taken away. Then
    the directory is made for the index, and the path leads to the page. -/
theorem build_keeps_stale_page : (sample "/x/../out").IsApart strayed ∧
    ∃ report after, (sample "/x/../out").build .standard strayed = .ok report after ∧
      report.problems.map (·.1) = ["b".toList] ∧
      after.read ((sample "/x/../out").pagePath "b".toList) =
        .ok (Encoding.encodeUtf8 "\x7b\x7d".toList) := by
  have hbuild : (answerOf? ((sample "/x/../out").build .standard strayed)).map
      (·.problems.map (·.1)) =
      some ["b".toList] := by
    decide +kernel
  obtain ⟨report, hreport, hproblems⟩ := Option.map_eq_some_iff.1 hbuild
  exact ⟨by decide +kernel, report, _, eq_ok_of_answerOf? hreport, hproblems, by decide +kernel⟩

end Marginalia.Site
