import Marginalia.Page.Record
import Marginalia.Proofs.Json.Whole

/-!
# Which pages and cards can be written

Of the page and the card of a project only what comes from its metadata may hold
half a surrogate pair. So both can be written exactly if the metadata is whole
(`Project.isWhole_iff`), and the index exactly if each of its cards can be
(`Card.isWhole_indexRecord_iff`).
-/

namespace Marginalia

/-- No metadata of a project holds half a surrogate pair. -/
structure Project.IsWhole (project : Project) : Prop where
  name : project.name.IsWhole
  author : ∀ s ∈ project.author, s.IsWhole
  description : ∀ s ∈ project.description, s.IsWhole
  simulation : ∀ s ∈ project.simulation, s.IsWhole
  thumbnail : ∀ s ∈ project.thumbnail, s.IsWhole

/-- The names of the sections of a page are texts, but for the name of the project. -/
theorem Page.isWhole_of_mem_sectionsOf {project : Project} {text : Text} {files : List ShownFile}
    (h : project.name.IsWhole) : ∀ s ∈ sectionsOf project text files, s.name.IsWhole := by
  intro s hs
  rw [sectionsOf, List.cons_append, List.cons_append, List.mem_cons, List.mem_append,
    List.mem_append, List.mem_cons, List.mem_map, List.mem_map] at hs
  rcases hs with rfl | (⟨heading, -, rfl⟩ | rfl | ⟨file, -, rfl⟩) | hs
  · exact h
  · exact LooseText.isWhole_ofText _
  · exact LooseText.isWhole_ofText _
  · exact LooseText.isWhole_ofText _
  · split at hs
    · exact List.mem_singleton.1 hs ▸ LooseText.isWhole_ofText _
    · cases hs

/-- The record of a page can be written if the metadata on it is whole. -/
theorem Page.isWhole_record_iff {settings : Settings} {project : Project} {text : Text}
    {files : List ShownFile} : (assemble settings project text files).record.IsWhole ↔
      project.name.IsWhole ∧ (∀ s ∈ project.author, s.IsWhole) ∧
        (∀ s ∈ project.description, s.IsWhole) ∧ ∀ s ∈ project.simulation, s.IsWhole := by
  have hfiles : ∀ file ∈ files, file.record.IsWhole := by
    simp [ShownFile.record, Note.record]
  have hsections : project.name.IsWhole →
      ∀ s ∈ sectionsOf project text files, (Section.record s).IsWhole := by
    intro h s hs
    simpa [Section.record] using isWhole_of_mem_sectionsOf h s hs
  simp only [record, assemble, Json.isWhole_ofFields, List.forall_mem_cons, List.not_mem_nil,
    Json.isWhole_ofJsonText, Json.isWhole_text, Json.isWhole_ofInt, Json.isWhole_ofLoose?,
    Json.isWhole_array, List.forall_mem_map, false_imp_iff, implies_true, true_and, and_true]
  constructor
  · rintro ⟨hname, hauthor, hdescription, hsimulation, -⟩
    exact ⟨hname, hauthor, hdescription, hsimulation⟩
  · rintro ⟨hname, hauthor, hdescription, hsimulation⟩
    exact ⟨hname, hauthor, hdescription, hsimulation, hfiles, hsections hname⟩

namespace Card

variable {card : Card} {project : Project}

/-- A card shows its project. -/
theorem of_ofProject? (h : ofProject? project = some card) :
    card.id = project.id ∧ card.name = project.name ∧ card.description = project.description := by
  rw [ofProject?] at h
  split at h
  · obtain rfl := Option.some.inj h
    exact ⟨rfl, rfl, rfl⟩
  · obtain ⟨link, -, rfl⟩ := Option.map_eq_some_iff.1 h
    exact ⟨rfl, rfl, rfl⟩

/-- The record of a card can be written if the texts on it can. -/
theorem isWhole_record_iff : card.record.IsWhole ↔ card.name.IsWhole ∧
    (∀ s ∈ card.description, s.IsWhole) ∧ ∀ s ∈ card.thumbnailUrl, s.IsWhole := by
  simp [record]

/-- The index can be written if each of its cards can. -/
theorem isWhole_indexRecord_iff {cards : List Card} :
    (indexRecord cards).IsWhole ↔ ∀ card ∈ cards, card.record.IsWhole := by
  simp [indexRecord]

/-- A link to a thumbnail is whole if and only if the thumbnail is. -/
theorem isWhole_linkTo? {id : Text} {thumbnail : LooseText} :
    (∃ link, linkTo? id thumbnail = some link ∧ link.IsWhole) ↔ thumbnail.IsWhole := by
  rw [linkTo?]
  cases htext : thumbnail.text? with
  | some path =>
    have hwhole : thumbnail.IsWhole := LooseText.text?_ne_none_iff.1 (by simp [htext])
    exact ⟨fun _ => hwhole, fun _ => ⟨_, rfl, LooseText.isWhole_ofText _⟩⟩
  | none =>
    have hhalf : ¬thumbnail.IsWhole := fun h => LooseText.text?_ne_none_iff.2 h htext
    refine ⟨fun ⟨link, hlink, hwhole⟩ => ?_, fun h => absurd h hhalf⟩
    dsimp only at hlink
    split at hlink
    · exact Option.some.inj hlink ▸ hwhole
    · cases hlink

/-- A project has a card that can be written if what the card shows of it is whole. -/
theorem exists_isWhole_iff : (∃ card, ofProject? project = some card ∧ card.record.IsWhole) ↔
    project.name.IsWhole ∧ (∀ s ∈ project.description, s.IsWhole) ∧
      ∀ s ∈ project.thumbnail, s.IsWhole := by
  simp only [isWhole_record_iff, ofProject?]
  cases hgiven : Project.given? project.thumbnail with
  | none =>
    -- A thumbnail that is not given is missing or empty, so there is no half in it.
    have hthumbnail : ∀ s ∈ project.thumbnail, s.IsWhole := by
      intro s hs
      rw [Option.mem_def.1 hs] at hgiven
      cases s with
      | nil => exact LooseText.isWhole_nil
      | cons symbol rest => cases hgiven
    simp only [Option.some.injEq, exists_eq_left']
    exact and_congr_right fun _ => and_congr_right fun _ => ⟨fun _ => hthumbnail, by simp⟩
  | some thumbnail =>
    have hthumbnail : project.thumbnail = some thumbnail := by
      cases ht : project.thumbnail with
      | none => rw [ht] at hgiven; cases hgiven
      | some s =>
        rw [ht] at hgiven
        cases s with
        | nil => cases hgiven
        | cons symbol rest => exact hgiven
    rw [hthumbnail]
    simp only [Option.map_eq_some_iff, Option.mem_def, Option.some.injEq, forall_eq']
    rw [← @isWhole_linkTo? project.id thumbnail]
    constructor
    · rintro ⟨card, ⟨link, hlink, rfl⟩, hname, hdescription, hwhole⟩
      exact ⟨hname, hdescription, link, hlink, hwhole link rfl⟩
    · rintro ⟨hname, hdescription, link, hlink, hwhole⟩
      exact ⟨_, ⟨link, hlink, rfl⟩, hname, hdescription, fun s hs => Option.some.inj hs ▸ hwhole⟩

end Card

/-- The page and the card of a project can be written if its metadata is whole, and
    only then. -/
theorem Project.isWhole_iff {settings : Settings} {project : Project} {text : Text}
    {files : List ShownFile} : project.IsWhole ↔
      (Page.assemble settings project text files).record.IsWhole ∧
        ∃ card, Card.ofProject? project = some card ∧ card.record.IsWhole := by
  rw [Page.isWhole_record_iff, Card.exists_isWhole_iff]
  constructor
  · exact fun ⟨hname, hauthor, hdescription, hsimulation, hthumbnail⟩ =>
      ⟨⟨hname, hauthor, hdescription, hsimulation⟩, hname, hdescription, hthumbnail⟩
  · exact fun ⟨⟨hname, hauthor, hdescription, hsimulation⟩, _, _, hthumbnail⟩ =>
      ⟨hname, hauthor, hdescription, hsimulation, hthumbnail⟩

end Marginalia
