import Marginalia.Proofs.Site.Progress

/-!
# Output that is up to date

The output of a project is up to date if what becomes of the project is published
(`IsUpToDate`), and the index is so if it has the cards of the projects with a page
(`IsIndexed`). After a build that is done both hold of all projects
(`isSettled_of_build`). While they do, a further build changes the bytes of no file
(`IsSettled.keepsBytes_build`), and nothing makes it fail but the disk, or directories that
are made below a project (`IsSettled.failure_of_build`). What is up to date does not depend
on those, so it is told as where directories may be nested at will (`Limits.lax`).
-/

namespace Marginalia.Site

open Disk (Changes leftBy leftBy_of_ok leftBy_of_error)

variable {site : Site} {limits : Limits} {d d' d₁ after : Disk} {id : Text} {ids : List Text}
  {page : Page} {card : Card} {cards cards' : List Card} {report : Report} {failure : Failure}
  {o : Text × Outcome} {outcomes : List (Text × Outcome)} {files : Set Location}
  {stale : Set Text} {α β : Type}

/-! ## Content that stays -/

/-- Two disks have the same projects, with the same files. -/
structure SameContent (site : Site) (d d' : Disk) : Prop where
  hasProject_iff : ∀ id, site.content.HasProject d' id ↔ site.content.HasProject d id
  sameProject : ∀ id, site.content.HasProject d id → site.content.SameProject d d' id

theorem SameContent.symm (h : site.SameContent d d') : site.SameContent d' d where
  hasProject_iff id := (h.hasProject_iff id).symm
  sameProject id hproject := (h.sameProject id ((h.hasProject_iff id).1 hproject)).symm

theorem SameContent.trans {d'' : Disk} (h : site.SameContent d d') (h' : site.SameContent d' d'') :
    site.SameContent d d'' where
  hasProject_iff id := (h'.hasProject_iff id).trans (h.hasProject_iff id)
  sameProject id hproject :=
    (h.sameProject id hproject).trans (h'.sameProject id ((h.hasProject_iff id).2 hproject))

/-- The content stays the same when files elsewhere change. -/
theorem IsApart.sameContent (h : site.IsApart d) (hcontent : d.HasDirectory site.settings.contentDir)
    (hchanges : site.ChangesElsewhere d d') (ht : d'.IsTree) : site.SameContent d d' where
  hasProject_iff id := by
    have hmetadata : site.content.locationOf d id ++ [Content.metadataFile] ∉ site.elsewhere d :=
      fun hmem => hmem (List.append_assoc .. ▸ List.prefix_append _ _)
    exact ⟨fun hproject => hproject.of_changes_to h.tree hcontent hchanges hmetadata,
      fun hproject => hproject.of_changes hchanges hmetadata⟩
  sameProject _ hproject := h.sameProject hproject hchanges ht

/-- Writing a page leaves the content as it was, whatever comes of it. -/
theorem IsApart.sameContent_writePage (h : site.IsApart d)
    (hcontent : d.HasDirectory site.settings.contentDir) (limits : Limits)
    (hname : Disk.IsName page.project.id) :
    site.SameContent d (leftBy (site.writePage limits page d)) := by
  have hconfined := confined_writePage h limits page
  exact h.sameContent hcontent
    (hconfined.changes.mono (Set.singleton_subset_iff.2 (h.pagePath_mem_elsewhere hname)))
    hconfined.tree

/-- Writing the index leaves the content as it was, whatever comes of it. -/
theorem IsApart.sameContent_writeIndex (h : site.IsApart d)
    (hcontent : d.HasDirectory site.settings.contentDir) (limits : Limits) :
    site.SameContent d (leftBy (site.writeIndex limits d)) := by
  have hconfined := confined_writeIndex h limits
  exact h.sameContent hcontent
    (hconfined.changes.mono (Set.singleton_subset_iff.2 h.indexPath_mem_elsewhere)) hconfined.tree

/-! ## Projects and cards -/

/-- The output of a project is up to date. -/
def IsUpToDate (site : Site) (limits : Limits) (d : Disk) (id : Text) : Prop :=
  ∃ outcome, site.outcome limits.lax d id = .ok outcome ∧ site.IsPublished d (id, outcome)

/-- These are the cards of the projects that have a page. The metadata of each is read twice. -/
structure AreCards (site : Site) (limits : Limits) (d : Disk) (cards : List Card) : Prop where
  ascending : Text.Ascending (cards.map (·.id))
  page : ∀ card ∈ cards, site.content.HasProject d card.id ∧ ∃ page,
    site.outcome limits.lax d card.id = .ok (.inl page) ∧
      site.content.project d card.id limits.lax.index = .ok page.project ∧
        Card.ofProject? page.project = some card
  card : ∀ id page, site.content.HasProject d id → site.outcome limits.lax d id = .ok (.inl page) →
    ∃ card ∈ cards, Card.ofProject? page.project = some card

/-- The index is up to date. -/
def IsIndexed (site : Site) (limits : Limits) (d : Disk) : Prop :=
  ∃ cards, site.AreCards limits d cards ∧ Holds d site.indexPath (Card.indexRecord cards)

theorem IsUpToDate.of_changes (h : site.IsUpToDate limits d id)
    (hsame : site.content.SameProject d d' id)
    (hchanges : Changes files d d') (hfiles : d.resolve (site.pagePath id) ∉ files) :
    site.IsUpToDate limits d' id := by
  obtain ⟨outcome, houtcome, hpublished⟩ := h
  exact ⟨outcome, (outcome_congr hsame).trans houtcome, hpublished.of_changes hchanges hfiles⟩

namespace AreCards

/-- There is one list of cards at most. -/
theorem eq (h : site.AreCards limits d cards) (h' : site.AreCards limits d cards') :
    cards = cards' := by
  have hsame : ∀ {cards cards' : List Card} {card card' : Card}, site.AreCards limits d cards →
      site.AreCards limits d cards' → card ∈ cards → card' ∈ cards' → card.id = card'.id →
        card = card' := by
    intro cards cards' card card' h h' hcard hcard' hid
    obtain ⟨-, page, hpage, -, hshown⟩ := h.page card hcard
    obtain ⟨-, page', hpage', -, hshown'⟩ := h'.page card' hcard'
    rw [hid, hpage'] at hpage
    obtain rfl := Sum.inl.inj (Except.ok.inj hpage)
    exact Option.some.inj (hshown.symm.trans hshown')
  have hsub : ∀ {cards cards' : List Card}, site.AreCards limits d cards →
      site.AreCards limits d cards' → cards ⊆ cards' := by
    intro cards cards' h h' card hcard
    obtain ⟨hproject, page, hpage, -, hshown⟩ := h.page card hcard
    obtain ⟨card', hcard', hshown'⟩ := h'.card _ page hproject hpage
    exact Option.some.inj (hshown.symm.trans hshown') ▸ hcard'
  have hordered : ∀ {cards : List Card}, site.AreCards limits d cards →
      cards.Pairwise fun card card' => Text.le card.id card'.id = true := fun h =>
    List.pairwise_map.1 (List.Pairwise.imp And.left h.ascending)
  have hperm : cards.Perm cards' := (List.perm_ext_iff_of_nodup (.of_map _ h.ascending.nodup)
    (.of_map _ h'.ascending.nodup)).2 fun _ => ⟨fun hcard => hsub h h' hcard,
      fun hcard => hsub h' h hcard⟩
  refine hperm.eq_of_pairwise (fun card card' hcard hcard' hle hle' => ?_) (hordered h) (hordered h')
  exact hsame h h' hcard hcard' (Text.le_antisymm hle hle')

/-- The cards are the same while the content is. -/
theorem of_sameContent (h : site.AreCards limits d cards) (hsame : site.SameContent d d') :
    site.AreCards limits d' cards where
  ascending := h.ascending
  page card hcard := by
    obtain ⟨hproject, page, hpage, hread, hshown⟩ := h.page card hcard
    have hsame' := hsame.sameProject _ hproject
    exact ⟨(hsame.hasProject_iff _).2 hproject, page, (outcome_congr hsame').trans hpage,
      (hsame'.project_congr_lax limits.index).trans hread, hshown⟩
  card id page hproject hpage := by
    have hproject := (hsame.hasProject_iff id).1 hproject
    exact h.card id page hproject (outcome_congr (hsame.sameProject _ hproject) ▸ hpage)

/-- The cards that the index is made of, where all projects are up to date. -/
theorem of_cards (h : site.IsApart d)
    (hall : ∀ id, site.content.HasProject d id → site.IsUpToDate limits d id)
    (hcards : site.cards limits d = .ok cards) : site.AreCards limits d cards := by
  obtain ⟨ids, hids, hcards⟩ := cards_eq_ok_iff.1 hcards
  have hprojects := mapError_eq_ok.1 hids
  refine ⟨(Content.ascending_of_projects h.tree hprojects).sublist (sublist_of_cardsOf hcards),
    fun card hcard => ?_, fun id page hproject hpage => ?_⟩
  · obtain ⟨hid, hcardOf⟩ := mem_of_cardsOf hcards hcard
    have hproject := (Content.mem_projects h.tree hprojects hid).2
    obtain ⟨outcome, houtcome, hpublished⟩ := hall card.id hproject
    have hrel := @rel_cardOf? site limits d limits.lax (card.id, outcome)
      houtcome hpublished _ hcardOf
    cases outcome with
    | inl page =>
      cases hrel with
      | some hshown =>
        obtain ⟨-, project, hread, -⟩ := cardOf?_eq_some_iff.1 hcardOf
        have hpage := (project_of_buildPage (outcome_eq_page_iff.1 houtcome)).1
        obtain rfl := Content.project_unique hpage hread
        exact ⟨hproject, page, houtcome, (site.content.project_lax d _ _).eq_ok hread, hshown⟩
    | inr message => cases hrel
  · obtain ⟨outcome, houtcome, hpublished⟩ := hall id hproject
    obtain rfl := Except.ok.inj (houtcome.symm.trans hpage)
    have hdir := hproject.hasDirectory.of_child hproject.isName
    have hid := Content.mem_of_projects h.tree hdir hprojects hproject
    obtain ⟨found, hfound, rfl⟩ := cardsOf_eq_ok_iff.1 hcards
    obtain ⟨card, hcard, hcardOf⟩ := exists_mem_of_forall₂ hfound hid
    cases @rel_cardOf? site limits d limits.lax (id, .inl page) houtcome hpublished _ hcardOf with
    | some hshown => exact ⟨_, List.reduceOption_mem_iff.2 hcard, hshown⟩

end AreCards

/-- An index that is written where all projects are up to date is so, too. -/
theorem isIndexed_of_writeIndex (h : site.IsApart d)
    (hcontent : d.HasDirectory site.settings.contentDir)
    (hall : ∀ id, site.content.HasProject d id → site.IsUpToDate limits d id)
    (hwrite : site.writeIndex limits d = .ok () d') : site.IsIndexed limits d' := by
  obtain ⟨cards, hcards, hholds, -⟩ := holds_of_writeIndex h hwrite
  have hsame := leftBy_of_ok hwrite ▸ h.sameContent_writeIndex hcontent limits
  exact ⟨cards, (AreCards.of_cards h hall hcards).of_sameContent hsame, hholds⟩

/-! ## Writing what is there -/

/-- The bytes of all files stay as they are. Files may be written anew. -/
def KeepsBytes (x : Publishing α) (d : Disk) : Prop :=
  ∀ l, (leftBy (x d)).bytesAt l = d.bytesAt l

namespace KeepsBytes

variable {x : Publishing α} {f : α → Publishing β}

theorem ok (hx : KeepsBytes x d) {a : α} (h : x d = .ok a d₁) (l : Location) :
    d₁.bytesAt l = d.bytesAt l :=
  leftBy_of_ok h ▸ hx l

theorem error (hx : KeepsBytes x d) (h : x d = .error failure d₁) (l : Location) :
    d₁.bytesAt l = d.bytesAt l :=
  leftBy_of_error h ▸ hx l

theorem bind (hx : KeepsBytes x d) (hf : ∀ a d₁, x d = .ok a d₁ → KeepsBytes (f a) d₁) :
    KeepsBytes (x >>= f) d := by
  intro l
  cases h : x d with
  | error failure d₁ =>
    have hbind : (x >>= f) d = .error failure d₁ := Publishing.bind_eq_error.2 (.inl h)
    rw [hbind]
    exact hx.error h l
  | ok a d₁ =>
    rw [Publishing.bind_of_ok h, hf a d₁ h l]
    exact hx.ok h l

theorem asking (question : Disk → Except Failure α) : KeepsBytes (asking question) d := by
  intro l
  rw [Site.asking]
  cases question d <;> rfl

theorem pure (a : α) : KeepsBytes (pure a : Publishing α) d := fun _ => rfl

end KeepsBytes

/-- To publish what is published keeps all bytes. -/
theorem keepsBytes_publish (h : site.IsApart d) (limits : Limits) (ho : IsOutcome o)
    (hpublished : site.IsPublished d o) : KeepsBytes (site.publish limits o) d := by
  obtain ⟨id, outcome⟩ := o
  cases outcome with
  | inl page =>
    obtain rfl := ho.page page rfl
    exact bytesAt_writeRecord_of_holds h.tree hpublished
  | inr message =>
    intro l
    have hconfined := confined_publish h limits ho
    by_cases hl : l = d.resolve (site.pagePath id)
    · subst hl
      have hnone : d.bytesAt (d.resolve (site.pagePath id)) = none := hpublished
      change (leftBy (changing (Disk.atOnce (·.delete (site.pagePath id))) d)).bytesAt _ = _
      rw [Publishing.leftBy_changing]
      rcases Disk.leftBy_atOnce (·.delete (site.pagePath id)) d with hleft | hleft
      · rw [hleft]
      · rcases (Disk.deleted_of_delete h.tree (Disk.atOnce_eq_ok_iff.1 hleft)).locate with
          ⟨-, hgone⟩ | ⟨-, hsame⟩
        · rw [hnone, Disk.bytesAt, hgone]
        · rw [hsame]
    · exact hconfined.changes.bytesAt hl

theorem keepsBytes_forM (h : site.IsApart d) (limits : Limits) (ho : ∀ o ∈ outcomes, IsOutcome o)
    (hpublished : ∀ o ∈ outcomes, site.IsPublished d o) :
    KeepsBytes (outcomes.forM (site.publish limits)) d := by
  induction outcomes generalizing d with
  | nil => exact .pure _
  | cons o rest ih =>
    obtain ⟨ho, hrest⟩ := List.forall_mem_cons.1 ho
    obtain ⟨hfirst, hpublished⟩ := List.forall_mem_cons.1 hpublished
    have hkeeps := keepsBytes_publish h limits ho hfirst
    refine hkeeps.bind fun _ d₁ hdone => ?_
    obtain ⟨hchanges, ht⟩ := (confined_publish h limits ho).ok hdone
    have hbytes := hkeeps.ok hdone
    exact ih (h.of_changes hchanges ht) hrest fun o ho =>
      (hpublished o ho).of_bytesAt hchanges (hbytes _)

/-- To write an index that is up to date keeps all bytes. -/
theorem keepsBytes_writeIndex (h : site.IsApart d)
    (hall : ∀ id, site.content.HasProject d id → site.IsUpToDate limits d id)
    (hindexed : site.IsIndexed limits d) : KeepsBytes (site.writeIndex limits) d := by
  obtain ⟨cards, hcards, hholds⟩ := hindexed
  refine (KeepsBytes.asking _).bind fun cards' d₁ hfound => ?_
  obtain ⟨hfound, rfl⟩ := Publishing.asking_eq_ok.1 hfound
  obtain rfl := hcards.eq (AreCards.of_cards h hall hfound)
  exact bytesAt_writeRecord_of_holds h.tree hholds

/-! ## Sites that are up to date -/

/-- The output of a site is up to date but for some stale projects. -/
structure IsSettled (site : Site) (limits : Limits) (stale : Set Text) (d : Disk) : Prop where
  apart : site.IsApart d
  hasContent : d.HasDirectory site.settings.contentDir
  hasOutput : d.HasDirectory site.settings.outputDir
  isUpToDate : ∀ id, site.content.HasProject d id → id ∉ stale → site.IsUpToDate limits d id
  isIndexed : (∀ id, site.content.HasProject d id → id ∉ stale) → site.IsIndexed limits d

/-- After a build that is done, all of the output is up to date. -/
theorem isSettled_of_build (h : site.IsApart d) (hlead : site.LeadsToOutput d)
    (hcontent : d.HasDirectory site.settings.contentDir)
    (hbuild : site.build limits d = .ok report after) : site.IsSettled limits ∅ after := by
  obtain ⟨outcomes, d₁, m, hindex, -⟩ := midway_of_build h hbuild
  have hprojects := mapError_eq_ok.1 (of_outcomes m.found).1
  have hnames : ∀ id ∈ outcomes.map (·.1), Disk.IsName id :=
    List.forall_mem_map.2 fun o ho => (m.isOutcome o ho).isName
  have hsame := h.sameContent hcontent (m.changes.mono (h.pageFiles_subset hnames)) m.apart.tree
  have hall : ∀ id, site.content.HasProject d₁ id → site.IsUpToDate limits d₁ id := by
    intro id hproject
    have hid := Content.mem_of_projects h.tree hcontent hprojects ((hsame.hasProject_iff id).1 hproject)
    obtain ⟨o, ho, rfl⟩ := List.mem_map.1 hid
    exact ⟨o.2, m.outcome_eq ho, m.isPublished h hlead o ho⟩
  have hcontent₁ := m.changes.hasDirectory hcontent
  obtain ⟨hchanges, ht⟩ := (confined_writeIndex m.apart limits).ok hindex
  have hsame₁ := leftBy_of_ok hindex ▸ m.apart.sameContent_writeIndex hcontent₁ limits
  obtain ⟨-, -, -, hout⟩ := holds_of_writeIndex m.apart hindex
  refine ⟨m.apart.of_changes hchanges ht, hchanges.hasDirectory hcontent₁, hout,
    fun id hproject _ => ?_, fun _ => isIndexed_of_writeIndex m.apart hcontent₁ hall hindex⟩
  have hproject₁ := (hsame₁.hasProject_iff id).1 hproject
  exact (hall id hproject₁).of_changes (hsame₁.sameProject id hproject₁) hchanges
    (resolve_pagePath_ne_indexPath hproject.isName)

namespace IsSettled

theorem mono (h : site.IsSettled limits stale d) {more : Set Text} (hsub : stale ⊆ more) :
    site.IsSettled limits more d where
  apart := h.apart
  hasContent := h.hasContent
  hasOutput := h.hasOutput
  isUpToDate id hproject hid := h.isUpToDate id hproject fun hmem => hid (hsub hmem)
  isIndexed hnone := h.isIndexed fun id hproject hmem => hnone id hproject (hsub hmem)

/-- The output stays up to date while the content and the bytes of all files do. -/
theorem of_bytesAt (h : site.IsSettled limits stale d) (hchanges : site.ChangesElsewhere d d')
    (ht : d'.IsTree) (hbytes : ∀ l, d'.bytesAt l = d.bytesAt l) :
    site.IsSettled limits stale d' := by
  have hsame := h.apart.sameContent h.hasContent hchanges ht
  refine ⟨h.apart.of_changes hchanges ht, hchanges.hasDirectory h.hasContent,
    hchanges.hasDirectory h.hasOutput, fun id hproject hid => ?_, fun hnone => ?_⟩
  · have hproject := (hsame.hasProject_iff id).1 hproject
    obtain ⟨outcome, houtcome, hpublished⟩ := h.isUpToDate id hproject hid
    exact ⟨outcome, (outcome_congr (hsame.sameProject id hproject)).trans houtcome,
      hpublished.of_bytesAt hchanges (hbytes _)⟩
  · obtain ⟨cards, hcards, hholds⟩ :=
      h.isIndexed fun id hproject => hnone id ((hsame.hasProject_iff id).2 hproject)
    exact ⟨cards, hcards.of_sameContent hsame, hholds.of_bytesAt hchanges (hbytes _)⟩

/-- A project that is up to date is fit to be built. -/
theorem isFit (h : site.IsSettled limits ∅ d) (hproject : site.content.HasProject d id) :
    site.IsFit limits.lax d id := by
  obtain ⟨outcome, houtcome, hpublished⟩ := h.isUpToDate id hproject (Set.notMem_empty id)
  refine ⟨outcome, houtcome, ?_⟩
  rintro page rfl
  obtain ⟨cards, hcards, hholds⟩ := h.isIndexed fun id _ => Set.notMem_empty id
  obtain ⟨card, hcard, hshown⟩ := hcards.card id page hproject houtcome
  refine ⟨Holds.isWhole hpublished, ?_, card, hshown,
    Card.isWhole_indexRecord_iff.1 hholds.isWhole card hcard⟩
  -- The page is that of which the card is, whose metadata was read for it.
  obtain ⟨-, page', hpage', hread, -⟩ := hcards.page card hcard
  obtain rfl : card.id = id := (Card.of_ofProject? hshown).1.trans
    (Content.id_of_project (project_of_buildPage (outcome_eq_page_iff.1 houtcome)).1).2
  obtain rfl := Sum.inl.inj (Except.ok.inj (houtcome.symm.trans hpage'))
  exact hread

/-- Where all is up to date, a build keeps all bytes. -/
theorem keepsBytes_build (h : site.IsSettled limits ∅ d) : KeepsBytes (site.build limits) d := by
  refine (KeepsBytes.asking _).bind fun outcomes d₀ houtcomes => ?_
  obtain ⟨houtcomes, rfl⟩ := Publishing.asking_eq_ok.1 houtcomes
  obtain ⟨-, hall⟩ := of_outcomes houtcomes
  obtain ⟨-, hknown⟩ := isOutcome_of_outcomes h.apart houtcomes
  have hnames : ∀ id ∈ outcomes.map (·.1), Disk.IsName id :=
    List.forall_mem_map.2 fun o ho => (hknown o ho).1.isName
  have hpublished : ∀ o ∈ outcomes, site.IsPublished d₀ o := by
    intro o ho
    obtain ⟨outcome, houtcome, hpublished⟩ :=
      h.isUpToDate o.1 (hknown o ho).2.2 (Set.notMem_empty _)
    have hlax := (site.outcome_lax limits d₀ o.1).eq_ok (hall o ho)
    obtain rfl := Except.ok.inj (houtcome.symm.trans hlax)
    exact hpublished
  have hkeeps := keepsBytes_forM h.apart limits (fun o ho => (hknown o ho).1) hpublished
  refine hkeeps.bind fun _ d₁ hpublish => ?_
  have m := midway_of_forM h.apart houtcomes hpublish
  have h₁ := h.of_bytesAt (m.changes.mono (h.apart.pageFiles_subset hnames)) m.apart.tree
    (hkeeps.ok hpublish)
  have hindex := keepsBytes_writeIndex h₁.apart
    (fun id hproject => h₁.isUpToDate id hproject (Set.notMem_empty id))
    (h₁.isIndexed fun id _ => Set.notMem_empty id)
  exact hindex.bind fun _ _ _ => .pure _

/-- Where all is up to date, only the disk makes a build fail, or directories below a project
    that are nested too deeply. -/
theorem failure_of_build (h : site.IsSettled limits ∅ d) (hcapacity : 1 ≤ site.settings.concurrency)
    (hbuild : site.build limits d = .error failure after) : (∃ e, failure = .disk e) ∨
      failure = .content .tooNested ∧ ∃ id, site.content.HasProject d id ∧
        ¬(limits.page.Admits (d.depthBelow (site.content.directory.child id)) ∧
          limits.index.Admits (d.depthBelow (site.content.directory.child id))) := by
  cases hids : site.projects d with
  | error cause =>
    have houtcomes : site.outcomes limits d = .error cause := bind_eq_error.2 (.inl hids)
    have hfails : site.build limits d = .error cause d :=
      Publishing.bind_eq_error.2 (.inl (Publishing.asking_eq_error.2 ⟨houtcomes, rfl⟩))
    obtain ⟨rfl, -⟩ := EStateM.Result.error.inj (hbuild.symm.trans hfails)
    obtain ⟨e, -, hcause⟩ := mapError_eq_error.1 hids
    exact .inl ⟨e, hcause.symm⟩
  | ok ids =>
    have hproject : ∀ id ∈ ids, site.content.HasProject d id := fun id hid =>
      (Content.mem_projects h.apart.tree (mapError_eq_ok.1 hids) hid).2
    by_cases hwithin : ∀ id ∈ ids,
        limits.page.Admits (d.depthBelow (site.content.directory.child id)) ∧
          limits.index.Admits (d.depthBelow (site.content.directory.child id))
    · exact .inl (failure_of_build_of_hasOutput h.apart h.hasOutput hcapacity hids (fun id hid =>
        (h.isFit (hproject id hid)).of_lax (hwithin id hid).1 fun _ _ => (hwithin id hid).2) hbuild)
    · push Not at hwithin
      obtain ⟨id, hid, hdeep⟩ := hwithin
      rcases site.build_lax limits d with heq | ⟨after', hfails⟩
      · exact .inl (failure_of_build_of_hasOutput h.apart h.hasOutput hcapacity hids
          (fun id hid => h.isFit (hproject id hid)) (heq.symm.trans hbuild))
      · exact .inr ⟨(EStateM.Result.error.inj (hbuild.symm.trans hfails)).1, id, hproject id hid,
          fun hboth => hdeep hboth.1 hboth.2⟩

end IsSettled

end Marginalia.Site
