import Mathlib.Data.List.ReduceOption
import Marginalia.Proofs.Site.Pages

/-!
# The cards of the index

The index has a card for a project if there is a file for its page and its metadata
can be shown (`cardOf?_eq_some_iff`). The cards come in the order of the projects
(`sublist_of_cardsOf`), and what is written is the record of them
(`holds_of_writeIndex`). Cards of metadata without half a surrogate pair can be written
(`isWhole_of_cards`).
-/

namespace Marginalia.Site

open Disk (Changes)

variable {site : Site} {limits : Limits} {d d' : Disk} {id : Text} {ids : List Text} {card : Card}
  {cards : List Card} {failure : Failure}

/-- The card of a project, if the index has one for it. -/
def cardOf? (site : Site) (limits : Limits) (disk : Disk) (id : Text) :
    Except Failure (Option Card) := do
  if ← (disk.isFile (site.pagePath id)).mapError .disk then
    match site.content.project disk id limits.index with
    | .ok project =>
      match Card.ofProject? project with
      | some card => return some card
      | none => throw .unencodable
    | .error (.invalid _) => return none
    | .error failure => throw (.content failure)
  else return none

/-! ## One card -/

/-- A project has no card if there is no file for its page, or its metadata is wrong. -/
theorem cardOf?_eq_ok_iff {found : Option Card} : site.cardOf? limits d id = .ok found ↔
    d.isFile (site.pagePath id) = .ok false ∧ found = none ∨
      d.isFile (site.pagePath id) = .ok true ∧
        ((∃ e, site.content.project d id limits.index = .error (.invalid e)) ∧ found = none ∨
          ∃ project card, site.content.project d id limits.index = .ok project ∧
            Card.ofProject? project = some card ∧ found = some card) := by
  rw [cardOf?]
  cases d.isFile (site.pagePath id) with
  | error e => simp [Except.mapError, bind, Except.bind]
  | ok there =>
    cases there with
    | false => simp [Except.mapError, bind, Except.bind, pure, Except.pure, eq_comm]
    | true =>
      simp only [Except.mapError, ok_bind, if_true]
      cases site.content.project d id limits.index with
      | error cause => cases cause <;> simp [pure, Except.pure, eq_comm]
      | ok project =>
        cases hcard : Card.ofProject? project <;> simp [hcard, pure, Except.pure, eq_comm]

theorem cardOf?_eq_some_iff : site.cardOf? limits d id = .ok (some card) ↔
    d.isFile (site.pagePath id) = .ok true ∧
      ∃ project, site.content.project d id limits.index = .ok project ∧
        Card.ofProject? project = some card := by
  simp [cardOf?_eq_ok_iff]

theorem cardOf?_eq_none_iff : site.cardOf? limits d id = .ok none ↔
    d.isFile (site.pagePath id) = .ok false ∨
      d.isFile (site.pagePath id) = .ok true ∧
        ∃ e, site.content.project d id limits.index = .error (.invalid e) := by
  simp [cardOf?_eq_ok_iff]

/-- What keeps a card from being made is the disk, or metadata of a project with a page that
    is not whole or that cannot be read. -/
theorem cardOf?_eq_error (h : site.cardOf? limits d id = .error failure) :
    (∃ e, failure = .disk e ∧ d.isFile (site.pagePath id) = .error e) ∨
    (failure = .unencodable ∧ d.isFile (site.pagePath id) = .ok true ∧
      ∃ project, site.content.project d id limits.index = .ok project ∧
        Card.ofProject? project = none) ∨
    ∃ cause, failure = .content cause ∧ d.isFile (site.pagePath id) = .ok true ∧
      site.content.project d id limits.index = .error cause ∧ ∀ e, cause ≠ .invalid e := by
  rw [cardOf?] at h
  rcases bind_eq_error.1 h with h | ⟨there, hthere, h⟩
  · obtain ⟨e, hfile, rfl⟩ := mapError_eq_error.1 h
    exact .inl ⟨e, rfl, hfile⟩
  cases there with
  | false => cases h
  | true =>
    rw [if_pos rfl] at h
    cases hproject : site.content.project d id limits.index with
    | ok project =>
      rw [hproject] at h
      cases hcard : Card.ofProject? project with
      | some card =>
        simp only [hcard] at h
        cases h
      | none =>
        simp only [hcard] at h
        exact .inr (.inl ⟨(Except.error.inj h).symm, mapError_eq_ok.1 hthere, project, rfl, hcard⟩)
    | error cause =>
      rw [hproject] at h
      have hthere := mapError_eq_ok.1 hthere
      cases cause with
      | invalid e => cases h
      | undecodable | beyondLimit text refusal | tooNested | disk e =>
        exact .inr (.inr ⟨_, (Except.error.inj h).symm, hthere, rfl,
          fun e => Content.Failure.noConfusion⟩)

/-- A card has the id of its project. -/
theorem id_of_cardOf? (h : site.cardOf? limits d id = .ok (some card)) : card.id = id := by
  obtain ⟨-, project, hproject, hcard⟩ := cardOf?_eq_some_iff.1 h
  exact (Card.of_ofProject? hcard).1.trans (Content.id_of_project hproject).2

/-- A project whose outcome is published has a card if it has a page, whatever the limits
    within which its card is made. -/
theorem rel_cardOf? {limits' : Limits} {o : Text × Outcome}
    (houtcome : site.outcome limits' d o.1 = .ok o.2) (hpublished : site.IsPublished d o)
    {card : Option Card} (hcard : site.cardOf? limits d o.1 = .ok card) :
    Option.Rel (fun page card => Card.ofProject? page.project = some card) o.2.getLeft? card := by
  obtain ⟨id, outcome⟩ := o
  cases outcome with
  | inl page =>
    have hproject := (project_of_buildPage (outcome_eq_page_iff.1 houtcome)).1
    have hfile : d.isFile (site.pagePath id) = .ok true := Holds.isFile hpublished
    cases card with
    | none =>
      rcases cardOf?_eq_none_iff.1 hcard with hnone | ⟨-, e, hwrong⟩
      · rw [hfile] at hnone
        cases hnone
      · exact absurd hwrong (Content.project_ne_invalid_of_ok hproject)
    | some card =>
      obtain ⟨-, project, hproject', hshown⟩ := cardOf?_eq_some_iff.1 hcard
      exact .some (Content.project_unique hproject' hproject ▸ hshown)
  | inr report =>
    cases card with
    | none => exact .none
    | some card =>
      obtain ⟨hfile, -⟩ := cardOf?_eq_some_iff.1 hcard
      exact absurd hpublished (Disk.isFile_eq_true_iff.1 hfile).2

/-! ## All cards -/

/-- The cards of projects are those of each of them. -/
theorem cardsOf_eq (site : Site) (limits : Limits) (d : Disk) (ids : List Text) :
    site.cardsOf limits d ids = List.reduceOption <$> ids.mapM (site.cardOf? limits d) := by
  induction ids with
  | nil => rfl
  | cons id rest ih =>
    rw [List.mapM_cons, cardsOf, cardOf?]
    cases d.isFile (site.pagePath id) with
    | error e => rfl
    | ok there =>
      cases there with
      | false =>
        simp only [Except.mapError, ok_bind, Bool.false_eq_true, if_false, ih]
        cases rest.mapM (site.cardOf? limits d) <;> rfl
      | true =>
        simp only [Except.mapError, ok_bind, if_true, ih]
        cases site.content.project d id limits.index with
        | error cause => cases cause <;> cases rest.mapM (site.cardOf? limits d) <;> rfl
        | ok project =>
          dsimp only
          cases Card.ofProject? project <;> cases rest.mapM (site.cardOf? limits d) <;> rfl

theorem cardsOf_eq_ok_iff : site.cardsOf limits d ids = .ok cards ↔
    ∃ found, List.Forall₂ (fun id card => site.cardOf? limits d id = .ok card) ids found ∧
      found.reduceOption = cards := by
  simp only [cardsOf_eq, map_eq_ok, mapM_eq_ok_iff]

theorem cards_eq_ok_iff : site.cards limits d = .ok cards ↔
    ∃ ids, site.projects d = .ok ids ∧ site.cardsOf limits d ids = .ok cards := bind_eq_ok

theorem cards_eq_error (h : site.cards limits d = .error failure) :
    site.projects d = .error failure ∨
    ∃ ids, site.projects d = .ok ids ∧ ∃ id ∈ ids, site.cardOf? limits d id = .error failure := by
  refine (bind_eq_error.1 h).imp_right ?_
  rintro ⟨ids, hids, h⟩
  rw [cardsOf_eq, map_eq_error] at h
  exact ⟨ids, hids, exists_of_mapM_eq_error h⟩

/-- The cards come in the order of the projects, each once. -/
theorem sublist_of_cardsOf (h : site.cardsOf limits d ids = .ok cards) :
    (cards.map (·.id)).Sublist ids := by
  obtain ⟨found, hfound, rfl⟩ := cardsOf_eq_ok_iff.1 h
  clear h
  induction hfound with
  | nil => exact .slnil
  | @cons id card rest _ hcard _ ih =>
    cases card with
    | none => exact ih.cons id
    | some card =>
      rw [List.reduceOption_cons_of_some, List.map_cons, id_of_cardOf? hcard]
      exact ih.cons_cons id

/-- Each card is that of one of the projects. -/
theorem mem_of_cardsOf (h : site.cardsOf limits d ids = .ok cards) (hcard : card ∈ cards) :
    card.id ∈ ids ∧ site.cardOf? limits d card.id = .ok (some card) := by
  obtain ⟨found, hfound, rfl⟩ := cardsOf_eq_ok_iff.1 h
  clear h
  induction hfound with
  | nil => cases hcard
  | @cons id first rest _ hfirst _ ih =>
    have hrest : card ∈ List.reduceOption _ → card.id ∈ id :: rest ∧ _ := fun hmem =>
      ⟨List.mem_cons_of_mem _ (ih hmem).1, (ih hmem).2⟩
    cases first with
    | none => exact hrest hcard
    | some first =>
      rw [List.reduceOption_cons_of_some] at hcard
      rcases List.mem_cons.1 hcard with rfl | hmem
      · obtain rfl := id_of_cardOf? hfirst
        exact ⟨List.mem_cons_self, hfirst⟩
      · exact hrest hmem

/-- Each card shows what is read of one of the projects with a page. -/
theorem exists_project_of_mem_cards (h : site.cards limits d = .ok cards) (hcard : card ∈ cards) :
    ∃ ids, site.projects d = .ok ids ∧ card.id ∈ ids ∧
      d.isFile (site.pagePath card.id) = .ok true ∧
        ∃ project, site.content.project d card.id limits.index = .ok project ∧
          Card.ofProject? project = some card := by
  obtain ⟨ids, hids, h⟩ := cards_eq_ok_iff.1 h
  obtain ⟨hid, hcardOf⟩ := mem_of_cardsOf h hcard
  exact ⟨ids, hids, hid, cardOf?_eq_some_iff.1 hcardOf⟩

/-! ## Metadata that the index is made of -/

/-- The metadata of a project can be read, if only to find that something is wrong with
    it. -/
def IsReadable (site : Site) (limits : Limits) (d : Disk) (id : Text) : Prop :=
  ∀ cause, site.content.project d id limits.index = .error cause → ∃ e, cause = .invalid e

/-- The metadata of every project with a page can be read. -/
def HasReadableMetadata (site : Site) (limits : Limits) (d : Disk) : Prop :=
  ∀ ids, site.projects d = .ok ids → ∀ id ∈ ids, d.isFile (site.pagePath id) = .ok true →
    site.IsReadable limits d id

/-- No metadata that is read of a project with a page holds half a surrogate pair. -/
def HasWholeMetadata (site : Site) (limits : Limits) (d : Disk) : Prop :=
  ∀ ids, site.projects d = .ok ids → ∀ id ∈ ids, d.isFile (site.pagePath id) = .ok true →
    ∀ project, site.content.project d id limits.index = .ok project → project.IsWhole

/-- The card of a project can be written. -/
def HasWholeCard (project : Project) : Prop :=
  ∃ card, Card.ofProject? project = some card ∧ card.record.IsWhole

/-- The card of a project whose metadata is whole can be written. -/
theorem hasWholeCard_of_isWhole {project : Project} (h : project.IsWhole) : HasWholeCard project :=
  Card.exists_isWhole_iff.2 ⟨h.name, h.description, h.thumbnail⟩

/-- Cards of whole metadata can be written. -/
theorem isWhole_of_cards (hwhole : site.HasWholeMetadata limits d)
    (h : site.cards limits d = .ok cards) :
    (Card.indexRecord cards).IsWhole := by
  refine Card.isWhole_indexRecord_iff.2 fun card hcard => ?_
  obtain ⟨ids, hids, hid, hfile, project, hproject, hshown⟩ := exists_project_of_mem_cards h hcard
  obtain ⟨card', hcard', hwhole'⟩ :=
    hasWholeCard_of_isWhole (hwhole ids hids card.id hid hfile project hproject)
  exact Option.some.inj (hshown.symm.trans hcard') ▸ hwhole'

/-! ## Writing the index -/

/-- An index that is written is the record of the cards. -/
theorem writeIndex_eq_ok : site.writeIndex limits d = .ok () d' ↔
    ∃ cards, site.cards limits d = .ok cards ∧
    writeRecord site.indexPath (Card.indexRecord cards) limits.parents d = .ok () d' := by
  rw [writeIndex, Publishing.bind_eq_ok]
  constructor
  · rintro ⟨cards, d₁, hcards, hrecord⟩
    obtain ⟨hcards, rfl⟩ := Publishing.asking_eq_ok.1 hcards
    exact ⟨cards, hcards, hrecord⟩
  · rintro ⟨cards, hcards, hrecord⟩
    exact ⟨cards, d, Publishing.asking_eq_ok.2 ⟨hcards, rfl⟩, hrecord⟩

/-- Writing the index changes its file only. -/
theorem confined_writeIndex (h : site.IsApart d) (limits : Limits) :
    Confined {d.resolve site.indexPath} (site.writeIndex limits) d := by
  refine (Confined.asking h.tree _).bind fun cards d₁ hcards => ?_
  obtain ⟨-, rfl⟩ := Publishing.asking_eq_ok.1 hcards
  exact confined_writeRecord h.tree _ _ _

/-- An index that is written holds the cards, in the output directory. -/
theorem holds_of_writeIndex (h : site.IsApart d) (hwrite : site.writeIndex limits d = .ok () d') :
    ∃ cards, site.cards limits d = .ok cards ∧ Holds d' site.indexPath (Card.indexRecord cards) ∧
      d'.HasDirectory site.settings.outputDir := by
  obtain ⟨cards, hcards, hrecord⟩ := writeIndex_eq_ok.1 hwrite
  obtain ⟨hholds, hdir⟩ := holds_of_writeRecord h.tree hrecord
  exact ⟨cards, hcards, hholds, parent_indexPath site ▸ hdir⟩

/-- An index is not written because its cards cannot be made, or one of them cannot be
    written, or the disk fails. Unless a card cannot be written no file is changed. -/
theorem unwritten_of_writeIndex (h : site.IsApart d)
    (hwrite : site.writeIndex limits d = .error failure d') :
    site.cards limits d = .error failure ∧ d' = d ∨
      (failure = .unencodable ∧
        ∃ cards, site.cards limits d = .ok cards ∧ ∃ card ∈ cards, ¬card.record.IsWhole) ∨
      (∃ e, failure = .disk e) ∧ Changes ∅ d d' := by
  rcases Publishing.bind_eq_error.1 hwrite with hcards | ⟨cards, d₁, hcards, hrecord⟩
  · exact .inl (Publishing.asking_eq_error.1 hcards)
  · obtain ⟨hcards, rfl⟩ := Publishing.asking_eq_ok.1 hcards
    rcases unwritten_of_writeRecord h.tree hrecord with ⟨rfl, hhalf, -⟩ | hdisk
    · rw [Card.isWhole_indexRecord_iff] at hhalf
      push Not at hhalf
      exact .inr (.inl ⟨rfl, cards, hcards, hhalf⟩)
    · exact .inr (.inr hdisk)

end Marginalia.Site
