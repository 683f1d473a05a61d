import Marginalia.Proofs.Site.Cards

/-!
# The course of a build

A build first finds out what becomes of each project, then publishes that, and last
writes the index. Once the pages are published, the index finds the same projects
with the same metadata as the pages were made of (`Midway`). It has a card for each
project with a page, in the same order (`Midway.forall₂_cards`), and is not written
only if the disk fails or the metadata on a card is not whole
(`Midway.failure_of_writeIndex`).
-/

namespace Marginalia.Site

open Disk (Changes leftBy)

variable {site : Site} {limits : Limits} {d d' d₁ : Disk} {id : Text}
  {outcomes : List (Text × Outcome)}
  {failure : Failure} {report : Report}

/-- The pages of a build are published, and its index is not. -/
structure Midway (site : Site) (limits : Limits) (d : Disk) (outcomes : List (Text × Outcome))
    (d₁ : Disk) :
    Prop where
  found : site.outcomes limits d = .ok outcomes
  isOutcome : ∀ o ∈ outcomes, IsOutcome o
  ascending : Text.Ascending (outcomes.map (·.1))
  publish : outcomes.forM (site.publish limits) d = .ok () d₁
  apart : site.IsApart d₁
  changes : Changes (site.pageFiles d (outcomes.map (·.1))) d d₁
  projects : ∀ ids, site.projects d₁ = .ok ids → ids = outcomes.map (·.1)
  same : ∀ o ∈ outcomes, site.content.SameProject d d₁ o.1

/-- What is known of the outcomes that are published. -/
theorem isOutcome_of_outcomes (h : site.IsApart d)
    (houtcomes : site.outcomes limits d = .ok outcomes) :
    Text.Ascending (outcomes.map (·.1)) ∧ ∀ o ∈ outcomes, IsOutcome o ∧
      d.HasDirectory site.settings.contentDir ∧ site.content.HasProject d o.1 := by
  obtain ⟨hids, hall⟩ := of_outcomes houtcomes
  have hprojects := mapError_eq_ok.1 hids
  refine ⟨Content.ascending_of_projects h.tree hprojects, fun o ho => ?_⟩
  obtain ⟨hdir, hproject⟩ := Content.mem_projects h.tree hprojects (List.mem_map_of_mem ho)
  exact ⟨isOutcome_of_outcome hproject.isName (hall o ho), hdir, hproject⟩

/-- The files of pages are outside the content directory. -/
theorem IsApart.pageFiles_subset (h : site.IsApart d) {ids : List Text}
    (hnames : ∀ id ∈ ids, Disk.IsName id) : site.pageFiles d ids ⊆ site.elsewhere d := by
  rintro l ⟨id, hid, rfl⟩
  exact h.pagePath_mem_elsewhere (hnames id hid)

theorem midway_of_forM (h : site.IsApart d) (houtcomes : site.outcomes limits d = .ok outcomes)
    (hpublish : outcomes.forM (site.publish limits) d = .ok () d₁) :
    site.Midway limits d outcomes d₁ := by
  obtain ⟨hascending, hknown⟩ := isOutcome_of_outcomes h houtcomes
  obtain ⟨hids, -⟩ := of_outcomes houtcomes
  have hisOutcome : ∀ o ∈ outcomes, IsOutcome o := fun o ho => (hknown o ho).1
  have hnames : ∀ id ∈ outcomes.map (·.1), Disk.IsName id :=
    List.forall_mem_map.2 fun o ho => (hisOutcome o ho).isName
  obtain ⟨hchanges, ht⟩ := (confined_forM h limits hisOutcome).ok hpublish
  have helsewhere : site.ChangesElsewhere d d₁ := hchanges.mono (h.pageFiles_subset hnames)
  refine ⟨houtcomes, hisOutcome, hascending, hpublish, h.of_changes hchanges ht, hchanges,
    fun ids hids₁ => ?_, fun o ho => h.sameProject (hknown o ho).2.2 helsewhere ht⟩
  cases outcomes with
  | nil =>
    -- Nothing is published, so the disk is the same.
    obtain rfl := (Publishing.pure_eq_ok.1 hpublish).2
    exact Except.ok.inj (hids₁.symm.trans hids)
  | cons o rest =>
    exact h.projects_eq (hknown o List.mem_cons_self).2.1 helsewhere ht hids hids₁

namespace Midway

variable {o : Text × Outcome} {cards : List Card}

/-- Each outcome is that of its project, still. Directories may have been made meanwhile. -/
theorem outcome_eq (m : site.Midway limits d outcomes d₁) (ho : o ∈ outcomes) :
    site.outcome limits.lax d₁ o.1 = .ok o.2 :=
  (outcome_congr (m.same o ho)).trans
    ((site.outcome_lax limits d o.1).eq_ok ((of_outcomes m.found).2 o ho))

/-- All outcomes are published, if the path of the output directory leads to it. -/
theorem isPublished (m : site.Midway limits d outcomes d₁) (h : site.IsApart d)
    (hlead : site.LeadsToOutput d) : ∀ o ∈ outcomes, site.IsPublished d₁ o :=
  (isPublished_of_forM h hlead m.isOutcome m.ascending.nodup m.publish).1

/-! ## The index -/

/-- The index has the cards of the projects that have a page, in their order. -/
theorem forall₂_cards (m : site.Midway limits d outcomes d₁)
    (hpublished : ∀ o ∈ outcomes, site.IsPublished d₁ o)
    (hcards : site.cards limits d₁ = .ok cards) :
    List.Forall₂ (fun page card => Card.ofProject? page.project = some card)
      (outcomes.filterMap (·.2.getLeft?)) cards := by
  obtain ⟨ids, hids, hcards⟩ := cards_eq_ok_iff.1 hcards
  obtain rfl := m.projects ids hids
  obtain ⟨found, hfound, rfl⟩ := cardsOf_eq_ok_iff.1 hcards
  rw [List.forall₂_map_left_iff] at hfound
  have hrel : List.Forall₂ (fun (o : Text × Outcome) card => Option.Rel (fun page card =>
      Card.ofProject? page.project = some card) o.2.getLeft? card) outcomes found :=
    ((List.forall₂_and_left _ _).2 ⟨fun o ho => ho, hfound⟩).imp fun o card h =>
      rel_cardOf? (m.outcome_eq h.1) (hpublished o h.1) h.2
  exact List.rel_filterMap (fun _ _ h => h) hrel

/-- A card of the index is that of a project with a page. -/
theorem exists_page (m : site.Midway limits d outcomes d₁)
    (hpublished : ∀ o ∈ outcomes, site.IsPublished d₁ o) (ho : o ∈ outcomes) {project : Project}
    {limits' : Content.Limits} (hfile : d₁.isFile (site.pagePath o.1) = .ok true)
    (hproject : site.content.project d₁ o.1 limits' = .ok project) :
    ∃ page, o.2 = .inl page ∧ page.project = project := by
  obtain ⟨page, hpage⟩ := exists_page_of_isFile (hpublished o ho) hfile
  have hproject' :=
    (project_of_buildPage (outcome_eq_page_iff.1 (hpage ▸ m.outcome_eq ho))).1
  exact ⟨page, hpage, Content.project_unique hproject' hproject⟩

/-- The cards are not made only if the disk fails, or the metadata of a project with a
    page is not fit for a card or beyond a limit. -/
theorem failure_of_cards (m : site.Midway limits d outcomes d₁)
    (h : site.cards limits d₁ = .error failure) : (∃ e, failure = .disk e) ∨
      (failure = .unencodable ∧ ∃ o ∈ outcomes, d₁.isFile (site.pagePath o.1) = .ok true ∧
        ∃ project, site.content.project d₁ o.1 limits.index = .ok project ∧
          Card.ofProject? project = none) ∨
      ∃ cause, failure = .content cause ∧ Content.IsLimit cause ∧ ∃ o ∈ outcomes,
        d₁.isFile (site.pagePath o.1) = .ok true ∧
          site.content.project d₁ o.1 limits.index = .error cause := by
  rcases cards_eq_error h with h | ⟨ids, hids, id, hid, h⟩
  · obtain ⟨e, -, rfl⟩ := mapError_eq_error.1 h
    exact .inl ⟨e, rfl⟩
  obtain rfl := m.projects ids hids
  obtain ⟨o, ho, rfl⟩ := List.mem_map.1 hid
  rcases cardOf?_eq_error h with ⟨e, hdisk, -⟩ | ⟨hfailure, hhalf⟩ |
    ⟨cause, hfailure, hfile, hproject, hcause⟩
  · exact .inl ⟨e, hdisk⟩
  · exact .inr (.inl ⟨hfailure, o, ho, hhalf⟩)
  · -- Metadata that cannot be read otherwise would have ended the build before.
    exact .inr (.inr ⟨cause, hfailure, isLimit_of_outcome (m.outcome_eq ho) hproject hcause,
      o, ho, hfile, hproject⟩)

/-- The index is not written only if the disk fails, or a project has a page of which the card
    cannot be written or the metadata, to make a card of it, is beyond a limit. -/
theorem failure_of_writeIndex (m : site.Midway limits d outcomes d₁)
    (hpublished : ∀ o ∈ outcomes, site.IsPublished d₁ o)
    (h : site.writeIndex limits d₁ = .error failure d') :
    (∃ e, failure = .disk e) ∨ ∃ o ∈ outcomes, ∃ page, o.2 = .inl page ∧
      (failure = .unencodable ∧ ¬HasWholeCard page.project ∨
        ∃ cause, failure = .content cause ∧ Content.IsLimit cause ∧ d' = d₁ ∧
          site.content.project d₁ o.1 limits.index = .error cause) := by
  rcases unwritten_of_writeIndex m.apart h with ⟨h, hsame⟩ |
    ⟨hfailure, cards, hcards, card, hcard, hbad⟩ | hdisk
  · rcases m.failure_of_cards h with hdisk | ⟨hfailure, o, ho, hfile, project, hproject, hnone⟩ |
      ⟨cause, hfailure, hlimit, o, ho, hfile, hproject⟩
    · exact .inl hdisk
    · obtain ⟨page, hpage, rfl⟩ := m.exists_page hpublished ho hfile hproject
      refine .inr ⟨o, ho, page, hpage, .inl ⟨hfailure, ?_⟩⟩
      rintro ⟨card, hsome, -⟩
      cases hnone.symm.trans hsome
    · obtain ⟨page, hpage⟩ := exists_page_of_isFile (hpublished o ho) hfile
      exact .inr ⟨o, ho, page, hpage, .inr ⟨cause, hfailure, hlimit, hsame, hproject⟩⟩
  · obtain ⟨ids, hids, hid, hfile, project, hproject, hshown⟩ :=
      exists_project_of_mem_cards hcards hcard
    obtain rfl := m.projects ids hids
    obtain ⟨o, ho, hsame⟩ := List.mem_map.1 hid
    rw [← hsame] at hfile hproject
    obtain ⟨page, hpage, rfl⟩ := m.exists_page hpublished ho hfile hproject
    refine .inr ⟨o, ho, page, hpage, .inl ⟨hfailure, ?_⟩⟩
    rintro ⟨card', hsome, hwhole⟩
    exact hbad (Option.some.inj (hshown.symm.trans hsome) ▸ hwhole)
  · exact .inl hdisk.1

end Midway

/-! ## Rebuilding -/

/-- A rebuild that is done has written the page, and then the index. -/
theorem rebuild_eq_ok {page : Page} : site.rebuild limits id d = .ok page d' ↔
    site.buildPage limits d id = .ok page ∧
      ∃ d₁, site.writePage limits page d = .ok () d₁ ∧ site.writeIndex limits d₁ = .ok () d' := by
  rw [rebuild, Publishing.bind_eq_ok]
  constructor
  · rintro ⟨page', d₀, hpage, hrest⟩
    obtain ⟨hpage, rfl⟩ := Publishing.asking_eq_ok.1 hpage
    obtain ⟨_, d₁, hwrite, hrest⟩ := Publishing.bind_eq_ok.1 hrest
    obtain ⟨_, d₂, hindex, hresult⟩ := Publishing.bind_eq_ok.1 hrest
    obtain ⟨rfl, rfl⟩ := Publishing.pure_eq_ok.1 hresult
    exact ⟨hpage, d₁, hwrite, hindex⟩
  · rintro ⟨hpage, d₁, hwrite, hindex⟩
    exact ⟨page, d, Publishing.asking_eq_ok.2 ⟨hpage, rfl⟩, Publishing.bind_eq_ok.2
      ⟨(), d₁, hwrite, Publishing.bind_eq_ok.2 ⟨(), d', hindex, rfl⟩⟩⟩

/-- A rebuild ends before anything is written, or while the page is written, or while
    the index is. -/
theorem rebuild_eq_error (h : site.rebuild limits id d = .error failure d') :
    site.buildPage limits d id = .error failure ∧ d' = d ∨
      ∃ page, site.buildPage limits d id = .ok page ∧
        (site.writePage limits page d = .error failure d' ∨
          ∃ d₁, site.writePage limits page d = .ok () d₁ ∧
            site.writeIndex limits d₁ = .error failure d') := by
  rcases Publishing.bind_eq_error.1 h with hpage | ⟨page, d₀, hpage, hrest⟩
  · exact .inl (Publishing.asking_eq_error.1 hpage)
  obtain ⟨hpage, rfl⟩ := Publishing.asking_eq_ok.1 hpage
  refine .inr ⟨page, hpage, ?_⟩
  rcases Publishing.bind_eq_error.1 hrest with hwrite | ⟨_, d₁, hwrite, hrest⟩
  · exact .inl hwrite
  rcases Publishing.bind_eq_error.1 hrest with hindex | ⟨_, d₂, -, hresult⟩
  · exact .inr ⟨d₁, hwrite, hindex⟩
  · cases hresult

/-- A page that is built is that of a project with a name. -/
theorem isName_of_buildPage {page : Page} (h : site.buildPage limits d id = .ok page) :
    Disk.IsName page.project.id ∧ page.project.id = id := by
  obtain ⟨hname, hid⟩ := Content.id_of_project (project_of_buildPage h).1
  exact ⟨hid ▸ hname, hid⟩

/-! ## The whole build -/

/-- A build that is done has published what becomes of each project, and then has written
    the index. -/
theorem build_eq_ok : site.build limits d = .ok report d' ↔
    ∃ outcomes d₁, site.outcomes limits d = .ok outcomes ∧
    outcomes.forM (site.publish limits) d = .ok () d₁ ∧ site.writeIndex limits d₁ = .ok () d' ∧
      report = .of outcomes := by
  rw [build, Publishing.bind_eq_ok]
  constructor
  · rintro ⟨outcomes, d₀, houtcomes, hrest⟩
    obtain ⟨houtcomes, rfl⟩ := Publishing.asking_eq_ok.1 houtcomes
    obtain ⟨_, d₁, hpublish, hrest⟩ := Publishing.bind_eq_ok.1 hrest
    obtain ⟨_, d₂, hindex, hreport⟩ := Publishing.bind_eq_ok.1 hrest
    obtain ⟨rfl, rfl⟩ := Publishing.pure_eq_ok.1 hreport
    exact ⟨outcomes, d₁, houtcomes, hpublish, hindex, rfl⟩
  · rintro ⟨outcomes, d₁, houtcomes, hpublish, hindex, rfl⟩
    exact ⟨outcomes, d, Publishing.asking_eq_ok.2 ⟨houtcomes, rfl⟩, Publishing.bind_eq_ok.2
      ⟨(), d₁, hpublish, Publishing.bind_eq_ok.2 ⟨(), d', hindex, rfl⟩⟩⟩

/-- A build that is done has gone midway, and then has written its index. -/
theorem midway_of_build (h : site.IsApart d) (hbuild : site.build limits d = .ok report d') :
    ∃ outcomes d₁, site.Midway limits d outcomes d₁ ∧ site.writeIndex limits d₁ = .ok () d' ∧
      report = .of outcomes := by
  obtain ⟨outcomes, d₁, houtcomes, hpublish, hindex, rfl⟩ := build_eq_ok.1 hbuild
  exact ⟨outcomes, d₁, midway_of_forM h houtcomes hpublish, hindex, rfl⟩

/-- A build ends before anything is written, or while its pages are published, or
    while its index is written. -/
theorem build_eq_error (h : site.IsApart d) (hbuild : site.build limits d = .error failure d') :
    site.outcomes limits d = .error failure ∧ d' = d ∨
      (∃ outcomes, site.outcomes limits d = .ok outcomes ∧
        outcomes.forM (site.publish limits) d = .error failure d') ∨
      ∃ outcomes d₁, site.Midway limits d outcomes d₁ ∧
        site.writeIndex limits d₁ = .error failure d' := by
  rcases Publishing.bind_eq_error.1 hbuild with houtcomes | ⟨outcomes, d₀, houtcomes, hrest⟩
  · exact .inl (Publishing.asking_eq_error.1 houtcomes)
  obtain ⟨houtcomes, rfl⟩ := Publishing.asking_eq_ok.1 houtcomes
  rcases Publishing.bind_eq_error.1 hrest with hpublish | ⟨_, d₁, hpublish, hrest⟩
  · exact .inr (.inl ⟨outcomes, houtcomes, hpublish⟩)
  rcases Publishing.bind_eq_error.1 hrest with hindex | ⟨_, d₂, -, hreport⟩
  · exact .inr (.inr ⟨outcomes, d₁, midway_of_forM h houtcomes hpublish, hindex⟩)
  · cases hreport

/-! ## Files that change -/

/-- The files of the output: the index and the pages of some projects. -/
def outputFiles (site : Site) (d : Disk) (ids : List Text) : Set Location :=
  insert (d.resolve site.indexPath) (site.pageFiles d ids)

theorem outputFiles_congr (h : d'.working = d.working) (ids : List Text) :
    site.outputFiles d' ids = site.outputFiles d ids := by
  simp only [outputFiles, pageFiles, Disk.resolve_congr h]

theorem outputFiles_mono {ids more : List Text} (h : ids ⊆ more) :
    site.outputFiles d ids ⊆ site.outputFiles d more :=
  Set.insert_subset_insert fun _ ⟨id, hid, hl⟩ => ⟨id, h hid, hl⟩

/-- The output is outside the content directory. -/
theorem IsApart.outputFiles_subset (h : site.IsApart d) {ids : List Text}
    (hnames : ∀ id ∈ ids, Disk.IsName id) : site.outputFiles d ids ⊆ site.elsewhere d :=
  Set.insert_subset h.indexPath_mem_elsewhere (h.pageFiles_subset hnames)

theorem confined_rebuild (h : site.IsApart d) (limits : Limits) (id : Text) :
    Confined (site.outputFiles d [id]) (site.rebuild limits id) d := by
  refine (Confined.asking h.tree _).bind fun page d₀ hpage => ?_
  obtain ⟨hpage, rfl⟩ := Publishing.asking_eq_ok.1 hpage
  obtain ⟨-, rfl⟩ := isName_of_buildPage hpage
  have hwrite := confined_writePage h limits page
  refine (hwrite.mono ?_).bind fun _ d₁ hdone => ?_
  · exact Set.singleton_subset_iff.2 (.inr ⟨_, List.mem_singleton_self _, rfl⟩)
  obtain ⟨hchanges, ht⟩ := hwrite.ok hdone
  have hindex := confined_writeIndex (h.of_changes hchanges ht) limits
  rw [hchanges.resolve] at hindex
  refine (hindex.mono (Set.singleton_subset_iff.2 (.inl rfl))).bind fun _ d₂ hdone => ?_
  exact .pure (hindex.ok hdone).2 _

theorem confined_build (h : site.IsApart d) (limits : Limits) {ids : List Text}
    (hids : site.projects d = .ok ids) :
    Confined (site.outputFiles d ids) (site.build limits) d := by
  refine (Confined.asking h.tree _).bind fun outcomes d₀ houtcomes => ?_
  obtain ⟨houtcomes, rfl⟩ := Publishing.asking_eq_ok.1 houtcomes
  obtain rfl := Except.ok.inj (hids.symm.trans (of_outcomes houtcomes).1)
  obtain ⟨-, hknown⟩ := isOutcome_of_outcomes h houtcomes
  have hpublish := confined_forM h limits fun o ho => (hknown o ho).1
  refine (hpublish.mono (Set.subset_insert _ _)).bind fun _ d₁ hdone => ?_
  obtain ⟨hchanges, ht⟩ := hpublish.ok hdone
  have hindex := confined_writeIndex (h.of_changes hchanges ht) limits
  rw [hchanges.resolve] at hindex
  refine (hindex.mono (Set.singleton_subset_iff.2 (.inl rfl))).bind fun _ d₂ hdone => ?_
  exact .pure (hindex.ok hdone).2 _

/-- The output stays apart from the content through a build. -/
theorem IsApart.build (h : site.IsApart d) (limits : Limits) :
    site.IsApart (leftBy (site.build limits d)) := by
  cases hids : site.projects d with
  | ok ids =>
    have hconfined := confined_build h limits hids
    exact h.of_changes hconfined.changes hconfined.tree
  | error failure =>
    have houtcomes : site.outcomes limits d = .error failure := bind_eq_error.2 (.inl hids)
    have hbuild : site.build limits d = .error failure d :=
      Publishing.bind_eq_error.2 (.inl (Publishing.asking_eq_error.2 ⟨houtcomes, rfl⟩))
    rw [hbuild]
    exact h

/-! ## Directories that are nested too deeply -/

/-- A step does what another one does, or fails for directories below a project that are nested
    too deeply. -/
def KeepsTo {α : Type} (x y : Publishing α) (d : Disk) : Prop :=
  x d = y d ∨ ∃ after, x d = .error (.content .tooNested) after

namespace KeepsTo

variable {α β : Type} {x y : Publishing α} {f g : α → Publishing β}

theorem refl (x : Publishing α) (d : Disk) : KeepsTo x x d := .inl rfl

/-- One step after another. -/
theorem bind (h : KeepsTo x y d) (hnext : ∀ a d₁, KeepsTo (f a) (g a) d₁) :
    KeepsTo (x >>= f) (y >>= g) d := by
  rcases h with heq | ⟨after, hfails⟩
  · cases hx : y d with
    | error failure d₁ =>
      exact .inl ((Publishing.bind_eq_error.2 (.inl (heq.trans hx))).trans
        (Publishing.bind_eq_error.2 (.inl hx)).symm)
    | ok a d₁ =>
      rw [KeepsTo, Publishing.bind_of_ok (heq.trans hx), Publishing.bind_of_ok hx]
      exact hnext a d₁
  · exact .inr ⟨after, Publishing.bind_eq_error.2 (.inl hfails)⟩

theorem asking {question question' : Disk → Except Failure α}
    (h : AgreesUnless Failure.IsTooNested (question d) (question' d)) :
    KeepsTo (asking question) (asking question') d := by
  rw [KeepsTo, Site.asking, Site.asking]
  rcases h with heq | ⟨failure, rfl, hfails⟩
  · rw [heq]
    exact .inl rfl
  · rw [hfails]
    exact .inr ⟨d, rfl⟩

end KeepsTo

theorem cardOf?_lax (site : Site) (limits : Limits) (d : Disk) (id : Text) :
    AgreesUnless Failure.IsTooNested (site.cardOf? limits d id)
      (site.cardOf? limits.lax d id) := by
  rw [cardOf?, cardOf?]
  refine (AgreesUnless.refl _).bind fun there _ => ?_
  split
  · rcases site.content.project_lax d id limits.index with heq | ⟨failure, rfl, hfails⟩
    · rw [heq]
      exact .refl _
    · rw [hfails]
      exact .of_error rfl
  · exact .refl _

/-- An index is written as it is where directories may be nested at will. -/
theorem writeIndex_lax (site : Site) (limits : Limits) (d : Disk) :
    KeepsTo (site.writeIndex limits) (site.writeIndex limits.lax) d := by
  refine (KeepsTo.asking ?_).bind fun cards d₁ => .refl _ d₁
  rw [cards, cards]
  refine (AgreesUnless.refl _).bind fun ids _ => ?_
  rw [cardsOf_eq, cardsOf_eq]
  exact (AgreesUnless.mapM fun id _ => site.cardOf?_lax limits d id).map

/-- A build does what it does where directories may be nested at will. -/
theorem build_lax (site : Site) (limits : Limits) (d : Disk) :
    KeepsTo (site.build limits) (site.build limits.lax) d :=
  (KeepsTo.asking (site.outcomes_lax limits d)).bind fun _ _ =>
    (KeepsTo.refl _ _).bind fun _ d₁ => (site.writeIndex_lax limits d₁).bind fun _ _ => .refl _ _

end Marginalia.Site
