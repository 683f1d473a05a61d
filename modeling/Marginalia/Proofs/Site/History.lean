import Marginalia.Proofs.Site.Build
import Marginalia.Proofs.Site.Sample

/-!
# The index over time

What is written of a site changes by calls that build all of it, rebuild a project or
write the index, between which the content may be edited (`History`). A call may fail, for
whatever reason and within whatever limits, but not at two places: a build, once it has
changed anything, and any call once it has opened the file of the index.

After any such history the index, if there is one, has its cards in ascending order,
and for each of them there is a page (`cards_have_pages`): pages are only taken away
by a build, which goes on to write the index. A rebuild takes no page away even if it
fails while it writes one (`HasPage.leftBy_rebuild`). It is different if a build breaks off
halfway, as half a surrogate pair in the metadata of one project makes it do: then the
index keeps the cards of pages that are gone (`broken_build_keeps_card`).
-/

namespace Marginalia.Site

open Disk (Changes leftBy leftBy_of_ok leftBy_of_error answerOf? failureOf? eq_ok_of_answerOf?
  eq_error_of_failureOf? IsName)

variable {site : Site} {limits : Limits} {start d d' : Disk} {id : Text} {page : Page} {α : Type}
  {result : EStateM.Result Failure Disk α}

/-! ## States -/

/-- There is a page of a project. -/
structure HasPage (site : Site) (d : Disk) (id : Text) : Prop where
  isName : IsName id
  isFile : d.bytesAt (d.resolve (site.pagePath id)) ≠ none

/-- The index holds cards in ascending order, each of a project with a page. -/
def IsBacked (site : Site) (d : Disk) : Prop :=
  ∀ bytes, d.bytesAt (d.resolve site.indexPath) = some bytes →
    ∃ cards text, (Card.indexRecord cards).write? = some text ∧ bytes = Encoding.encodeUtf8 text ∧
      Text.Ascending (cards.map (·.id)) ∧ ∀ card ∈ cards, site.HasPage d card.id

/-- The index stays backed if it stays as it is and no page is taken away. -/
theorem IsBacked.of_hasPage (h : site.IsBacked d)
    (hindex : d'.bytesAt (d'.resolve site.indexPath) = d.bytesAt (d.resolve site.indexPath))
    (hpages : ∀ id, site.HasPage d id → site.HasPage d' id) : site.IsBacked d' := by
  intro bytes hbytes
  rw [hindex] at hbytes
  obtain ⟨cards, text, htext, rfl, hascending, hcards⟩ := h bytes hbytes
  exact ⟨cards, text, htext, rfl, hascending, fun card hcard => hpages _ (hcards card hcard)⟩

/-- A page stays if it is not among the files that change. -/
theorem HasPage.of_changes {files : Set Location} (h : site.HasPage d id)
    (hchanges : Changes files d d') (hfiles : d.resolve (site.pagePath id) ∉ files) :
    site.HasPage d' id := by
  refine ⟨h.isName, ?_⟩
  rw [hchanges.resolve, hchanges.bytesAt hfiles]
  exact h.isFile

/-! ## Calls that do not break off -/

/-- A build from a disk fails, if at all, before it has changed anything. -/
def FailsUnchanged (d : Disk) (result : EStateM.Result Failure Disk α) : Prop :=
  ∀ failure d', result = .error failure d' → d' = d

/-- A call from a disk leaves the index as it is if it fails. -/
def FailsUnindexed (site : Site) (d : Disk) (result : EStateM.Result Failure Disk α) : Prop :=
  ∀ failure d', result = .error failure d' →
    d'.bytesAt (d'.resolve site.indexPath) = d.bytesAt (d.resolve site.indexPath)

/-- A call that is done does not break off. -/
theorem failsUnchanged_of_isSome (h : (answerOf? result).isSome) : FailsUnchanged d result := by
  rintro failure d' rfl
  cases h

/-! ## Pages -/

/-- Writing a page takes no page away, whatever comes of it. -/
theorem HasPage.leftBy_writePage (hpage : site.HasPage d id) (h : site.IsApart d) (page : Page) :
    site.HasPage (leftBy (site.writePage limits page d)) id := by
  refine ⟨hpage.isName, ?_⟩
  rw [(confined_writePage h limits page).changes.resolve]
  exact bytesAt_writeRecord_ne_none h.tree _ _ _ hpage.isFile

/-- Writing the index takes no page away, whatever comes of it. -/
theorem HasPage.leftBy_writeIndex (hpage : site.HasPage d id) (h : site.IsApart d) :
    site.HasPage (leftBy (site.writeIndex limits d)) id :=
  hpage.of_changes (confined_writeIndex h limits).changes
    (resolve_pagePath_ne_indexPath hpage.isName)

/-- Rebuilding a project takes no page away, whatever comes of it. -/
theorem HasPage.leftBy_rebuild {other : Text} (hpage : site.HasPage d other) (h : site.IsApart d)
    (id : Text) : site.HasPage (leftBy (site.rebuild limits id d)) other := by
  cases hrebuild : site.rebuild limits id d with
  | ok page d' =>
    obtain ⟨-, d₁, hwrite, hindex⟩ := rebuild_eq_ok.1 hrebuild
    obtain ⟨hchanges, ht⟩ := (confined_writePage h limits page).ok hwrite
    have hpage₁ := leftBy_of_ok hwrite ▸ hpage.leftBy_writePage h page
    exact leftBy_of_ok hindex ▸ hpage₁.leftBy_writeIndex (h.of_changes hchanges ht)
  | error failure d' =>
    rcases rebuild_eq_error hrebuild with ⟨-, rfl⟩ | ⟨page, -, hwrite | ⟨d₁, hwrite, hindex⟩⟩
    · exact hpage
    · exact leftBy_of_error hwrite ▸ hpage.leftBy_writePage h page
    · obtain ⟨hchanges, ht⟩ := (confined_writePage h limits page).ok hwrite
      have hpage₁ := leftBy_of_ok hwrite ▸ hpage.leftBy_writePage h page
      exact leftBy_of_error hindex ▸ hpage₁.leftBy_writeIndex (h.of_changes hchanges ht)

/-! ## The index -/

/-- An index that is written is backed. -/
theorem isBacked_of_writeIndex (h : site.IsApart d)
    (hwrite : site.writeIndex limits d = .ok () d') :
    site.IsBacked d' := by
  obtain ⟨hchanges, -⟩ := (confined_writeIndex h limits).ok hwrite
  obtain ⟨cards, hcards, hholds, -⟩ := holds_of_writeIndex h hwrite
  intro bytes hbytes
  obtain ⟨text, htext, hbytes'⟩ := hholds.bytesAt
  obtain ⟨ids, hids, hmade⟩ := cards_eq_ok_iff.1 hcards
  have hascending := Content.ascending_of_projects h.tree (mapError_eq_ok.1 hids)
  refine ⟨cards, text, htext, Option.some.inj (hbytes.symm.trans hbytes'),
    hascending.sublist (sublist_of_cardsOf hmade), fun card hcard => ?_⟩
  obtain ⟨-, -, -, hfile, project, hproject, -⟩ := exists_project_of_mem_cards hcards hcard
  have hname := (Content.id_of_project hproject).1
  have hpage : site.HasPage d card.id := ⟨hname, (Disk.isFile_eq_true_iff.1 hfile).2⟩
  exact hpage.of_changes hchanges (resolve_pagePath_ne_indexPath hname)

/-- Writing the index keeps it backed, also if it fails before that. -/
theorem isBacked_writeIndex (h : site.IsApart d) (hbacked : site.IsBacked d)
    (hunindexed : site.FailsUnindexed d (site.writeIndex limits d)) :
    site.IsBacked (leftBy (site.writeIndex limits d)) := by
  cases hwrite : site.writeIndex limits d with
  | ok _ d' => exact isBacked_of_writeIndex h hwrite
  | error failure d' =>
    exact hbacked.of_hasPage (hunindexed failure d' hwrite) fun id hpage =>
      leftBy_of_error hwrite ▸ hpage.leftBy_writeIndex h

/-- Rebuilding a project keeps the index backed, also if it fails before that is written. -/
theorem isBacked_rebuild (h : site.IsApart d) (hbacked : site.IsBacked d)
    (hunindexed : site.FailsUnindexed d (site.rebuild limits id d)) :
    site.IsBacked (leftBy (site.rebuild limits id d)) := by
  cases hrebuild : site.rebuild limits id d with
  | ok page d' =>
    obtain ⟨-, d₁, hwrite, hindex⟩ := rebuild_eq_ok.1 hrebuild
    obtain ⟨hchanges, ht⟩ := (confined_writePage h limits page).ok hwrite
    exact isBacked_of_writeIndex (h.of_changes hchanges ht) hindex
  | error failure d' =>
    exact hbacked.of_hasPage (hunindexed failure d' hrebuild) fun other hpage =>
      leftBy_of_error hrebuild ▸ hpage.leftBy_rebuild h id

/-- A build keeps the index backed: it takes pages away, and then writes the index. -/
theorem isBacked_build (h : site.IsApart d) (hbacked : site.IsBacked d)
    (hunchanged : FailsUnchanged d (site.build limits d)) :
    site.IsBacked (leftBy (site.build limits d)) := by
  cases hbuild : site.build limits d with
  | ok report d' =>
    obtain ⟨outcomes, d₁, m, hwrite, -⟩ := midway_of_build h hbuild
    exact isBacked_of_writeIndex m.apart hwrite
  | error failure d' =>
    obtain rfl := hunchanged failure d' hbuild
    exact hbacked

/-- Edits of the content keep the index backed. -/
theorem isBacked_of_isEdited (hedit : site.IsEdited d d') (h : site.IsApart d)
    (hbacked : site.IsBacked d) : site.IsBacked d' := by
  refine hbacked.of_hasPage ?_ fun id hpage => ⟨hpage.isName, ?_⟩
  · rw [hedit.resolve, hedit.bytesAt h.indexPath_mem_elsewhere]
  · rw [hedit.resolve, hedit.bytesAt (h.pagePath_mem_elsewhere hpage.isName)]
    exact hpage.isFile

/-! ## Histories -/

/-- What a disk comes to by calls, each within limits of its own, and by edits of the content. A
    build that fails does so before it has changed anything, and any other call that fails does
    so before it has opened the file of the index. -/
inductive History (site : Site) (start : Disk) : Disk → Prop
  | start : History site start start
  | edit {d d' : Disk} (h : History site start d) (hedit : site.IsEdited d d') :
    History site start d'
  | build {d : Disk} (limits : Limits) (h : History site start d)
    (hunchanged : FailsUnchanged d (site.build limits d)) :
    History site start (leftBy (site.build limits d))
  | rebuild {d : Disk} (limits : Limits) (id : Text) (h : History site start d)
    (hunindexed : site.FailsUnindexed d (site.rebuild limits id d)) :
    History site start (leftBy (site.rebuild limits id d))
  | writeIndex {d : Disk} (limits : Limits) (h : History site start d)
    (hunindexed : site.FailsUnindexed d (site.writeIndex limits d)) :
    History site start (leftBy (site.writeIndex limits d))

/-- Through a history the output stays apart from the content. -/
theorem History.isApart (h : site.History start d) (hapart : site.IsApart start) :
    site.IsApart d := by
  induction h with
  | start => exact hapart
  | edit _ hedit ih => exact hedit.isApart ih
  | build limits _ _ ih => exact ih.build limits
  | rebuild limits id _ _ ih =>
    have hconfined := confined_rebuild ih limits id
    exact ih.of_changes hconfined.changes hconfined.tree
  | writeIndex limits _ _ ih =>
    have hconfined := confined_writeIndex ih limits
    exact ih.of_changes hconfined.changes hconfined.tree

/-- Through a history the index stays backed. -/
theorem History.isBacked (h : site.History start d) (hapart : site.IsApart start)
    (hbacked : site.IsBacked start) : site.IsBacked d := by
  induction h with
  | start => exact hbacked
  | edit h hedit ih => exact isBacked_of_isEdited hedit (h.isApart hapart) ih
  | build limits h hunchanged ih => exact isBacked_build (h.isApart hapart) ih hunchanged
  | rebuild limits id h hunindexed ih => exact isBacked_rebuild (h.isApart hapart) ih hunindexed
  | writeIndex limits h hunindexed ih => exact isBacked_writeIndex (h.isApart hapart) ih hunindexed

/-- After any history that starts without an index, the index, if there is one, has its
    cards in ascending order of their projects, and there is a page for each of them. -/
theorem cards_have_pages (hapart : site.IsApart start)
    (hempty : start.bytesAt (start.resolve site.indexPath) = none) (h : site.History start d) :
    ∀ bytes, d.bytesAt (d.resolve site.indexPath) = some bytes → ∃ cards text,
      (Card.indexRecord cards).write? = some text ∧ bytes = Encoding.encodeUtf8 text ∧
        Text.Ascending (cards.map (·.id)) ∧
        ∀ card ∈ cards, d.bytesAt (d.resolve (site.pagePath card.id)) ≠ none := by
  have hstart : site.IsBacked start := fun bytes hbytes => by
    rw [hempty] at hbytes
    cases hbytes
  intro bytes hbytes
  obtain ⟨cards, text, htext, hcontent, hascending, hpages⟩ := h.isBacked hapart hstart bytes hbytes
  exact ⟨cards, text, htext, hcontent, hascending, fun card hcard => (hpages card hcard).isFile⟩

/-! ## A page that is taken away -/

/-- The disk after a build, when the project has been given a source with a mark that
    closes nothing. -/
def spoilt : Disk :=
  (leftBy ((sample "/out").build .standard unbuilt)).put (["content", "a", "a.ino"].map (·.toList))
    (.file (Encoding.encodeUtf8 "// @end\n".toList) 0)

/-- The disk when there is another project besides, with half a surrogate pair in its
    metadata. -/
def halved : Disk :=
  (spoilt.put (["content", "b"].map (·.toList)) .directory).put
    (["content", "b", "project.json"].map (·.toList))
    (.file (Encoding.encodeUtf8 "\x7b\"name\": \"B\", \"author\": \"\\ud800\"\x7d".toList) 0)

theorem isApart_unbuilt : (sample "/out").IsApart unbuilt := by decide +kernel

theorem history_spoilt : (sample "/out").History unbuilt spoilt := by
  have hbuilt : (answerOf? ((sample "/out").build .standard unbuilt)).isSome ∧
      (leftBy ((sample "/out").build .standard unbuilt)).HasPlace
        (["content", "a", "a.ino"].map (·.toList)) ∧
      (leftBy ((sample "/out").build .standard unbuilt)).get?
        (["content", "a", "a.ino"].map (·.toList)) ≠
        some .directory ∧
      (leftBy ((sample "/out").build .standard unbuilt)).resolve
        (sample "/out").settings.contentDir <+:
        ["content", "a", "a.ino"].map (·.toList) := by
    decide +kernel
  obtain ⟨hdone, hplace, hfree, hbelow⟩ := hbuilt
  exact .edit (.build .standard .start (failsUnchanged_of_isSome hdone))
    (.put (isApart_unbuilt.build .standard).tree hplace hfree hbelow)

theorem cards_have_pages_spoilt :
    (sample "/out").IsApart unbuilt ∧
      unbuilt.bytesAt (unbuilt.resolve (sample "/out").indexPath) = none ∧
      (sample "/out").History unbuilt (leftBy ((sample "/out").build .standard spoilt)) ∧
      ∀ bytes, (leftBy ((sample "/out").build .standard spoilt)).bytesAt
          ((leftBy ((sample "/out").build .standard spoilt)).resolve (sample "/out").indexPath) =
            some bytes →
        ∃ cards text, (Card.indexRecord cards).write? = some text ∧
          bytes = Encoding.encodeUtf8 text ∧ Text.Ascending (cards.map (·.id)) ∧
          ∀ card ∈ cards, (leftBy ((sample "/out").build .standard spoilt)).bytesAt
            ((leftBy ((sample "/out").build .standard spoilt)).resolve
              ((sample "/out").pagePath card.id)) ≠
              none :=
  have hempty : unbuilt.bytesAt (unbuilt.resolve (sample "/out").indexPath) = none := by
    decide +kernel
  have hhistory : (sample "/out").History unbuilt
      (leftBy ((sample "/out").build .standard spoilt)) :=
    .build .standard history_spoilt (failsUnchanged_of_isSome (by decide +kernel))
  ⟨isApart_unbuilt, hempty, hhistory, cards_have_pages isApart_unbuilt hempty hhistory⟩

theorem history_halved : (sample "/out").History unbuilt halved := by
  have hplace : spoilt.HasPlace (["content", "b"].map (·.toList)) ∧
      spoilt.get? (["content", "b"].map (·.toList)) ≠ some .directory ∧
      spoilt.resolve (sample "/out").settings.contentDir <+: ["content", "b"].map (·.toList) ∧
      (spoilt.put (["content", "b"].map (·.toList)) .directory).HasPlace
        (["content", "b", "project.json"].map (·.toList)) ∧
      (spoilt.put (["content", "b"].map (·.toList)) .directory).get?
        (["content", "b", "project.json"].map (·.toList)) ≠ some .directory ∧
      (spoilt.put (["content", "b"].map (·.toList)) .directory).resolve
        (sample "/out").settings.contentDir <+: ["content", "b", "project.json"].map (·.toList) := by
    decide +kernel
  obtain ⟨hplace, hfree, hbelow, hplace', hfree', hbelow'⟩ := hplace
  have hedit : (sample "/out").IsEdited spoilt
      (spoilt.put (["content", "b"].map (·.toList)) .directory) :=
    .put (history_spoilt.isApart isApart_unbuilt).tree hplace hfree hbelow
  exact .edit (.edit history_spoilt hedit) (.put hedit.tree hplace' hfree' hbelow')

/-- What becomes of both projects. -/
def halvedOutcomes : List (Text × Outcome) :=
  ((["a".toList, "b".toList].mapM fun id => do
    return (id, ← (sample "/out").outcome .standard halved id)).toOption).getD []

theorem outcomes_halved : (sample "/out").outcomes .standard halved = .ok halvedOutcomes ∧
    failureOf? (halvedOutcomes.forM ((sample "/out").publish .standard) halved) =
      some .unencodable := by
  have hread : halved.isDirectory (sample "/out").content.directory = .ok true ∧
      (sample "/out").content.projectsAmong halved
        ((halved.children (sample "/out").content.directory).map (·.1)) =
          .ok ["b".toList, "a".toList] ∧
      (["a".toList, "b".toList].mapM fun id => do
        return (id, ← (sample "/out").outcome .standard halved id)).toOption.isSome ∧
      failureOf? (halvedOutcomes.forM ((sample "/out").publish .standard) halved) =
        some .unencodable := by
    decide +kernel
  obtain ⟨hthere, hamong, hsome, hpublish⟩ := hread
  have houtcomes := outcomes_eq_mapM .standard (by decide)
    (projects_eq_pair hthere hamong (by decide))
  exact ⟨houtcomes.trans (eq_ok_of_isSome_toOption hsome []), hpublish⟩

/-- A build breaks off at a page that cannot be written, when it has taken another page
    away already. The index keeps the card of that one. -/
theorem broken_build_keeps_card :
    (sample "/out").IsApart unbuilt ∧
      unbuilt.bytesAt (unbuilt.resolve (sample "/out").indexPath) = none ∧
      (sample "/out").History unbuilt halved ∧
      ∃ after, (sample "/out").build .standard halved = .error .unencodable after ∧
        Holds after (sample "/out").indexPath
          (Card.indexRecord [⟨"a".toList, .ofText "A".toList, none, none⟩]) ∧
        after.bytesAt (after.resolve ((sample "/out").pagePath "a".toList)) = none := by
  obtain ⟨houtcomes, hpublish⟩ := outcomes_halved
  refine ⟨isApart_unbuilt, by decide +kernel, history_halved, _, Publishing.bind_eq_error.2
    (.inr ⟨halvedOutcomes, halved, Publishing.asking_eq_ok.2 ⟨houtcomes, rfl⟩,
      Publishing.bind_eq_error.2 (.inl (eq_error_of_failureOf? hpublish))⟩), ?_⟩
  decide +kernel

end Marginalia.Site
