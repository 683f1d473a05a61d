import Marginalia.Proofs.Extraction.Depth
import Marginalia.Proofs.Site.Output

/-!
# What becomes of a project

A project gets a page, or something is wrong with it, or it cannot be read. Which of
these it is depends on the files of the project alone (`outcome_congr`), and if there is
a limit to directories, on how deep those below its own are nested. A page shows the
metadata of its project (`project_of_buildPage`), and what is not the fault of a project
comes of reading its files, or of notes that are nested too deeply in them
(`exists_of_outcome_eq_error`).

A build may make directories, so what it finds to have become of a project it finds
again only without the limit on these (`Limits.lax`, `outcome_lax`).
-/

namespace Marginalia

/-! ## Metadata -/

namespace Content

variable {content : Content} {d : Disk} {id : Text} {limits : Limits} {project : Project}

theorem id_of_projectIn {modified : Int} {json : Json} (h : projectIn id modified json = .ok project) :
    project.id = id := by
  rw [projectIn.eq_def] at h
  split at h
  · split at h
    · cases h
    · obtain ⟨author, -, h⟩ := bind_eq_ok.1 h
      obtain ⟨description, -, h⟩ := bind_eq_ok.1 h
      obtain ⟨simulation, -, h⟩ := bind_eq_ok.1 h
      obtain ⟨thumbnail, -, h⟩ := bind_eq_ok.1 h
      obtain rfl := Except.ok.inj h
      rfl
  · cases h

/-- The metadata that is read of an id is that of a project of the id. -/
theorem id_of_project (h : content.project d id limits = .ok project) :
    Disk.IsName id ∧ project.id = id := by
  obtain ⟨directory, hdirectory, h⟩ := bind_eq_ok.1 h
  obtain ⟨bytes, -, h⟩ := bind_eq_ok.1 h
  obtain ⟨json, -, h⟩ := bind_eq_ok.1 h
  obtain ⟨read, hread, h⟩ := bind_eq_ok.1 h
  obtain ⟨_, -, h⟩ := bind_eq_ok.1 h
  obtain rfl := Except.ok.inj h
  exact ⟨(hasProject_of_directoryOf hdirectory).isName, id_of_projectIn (mapError_eq_ok.1 hread)⟩

/-- Where metadata is read, there is a project. -/
theorem hasProject_of_project (h : content.project d id limits = .ok project) :
    content.HasProject d id := by
  obtain ⟨directory, hdirectory, -⟩ := bind_eq_ok.1 h
  exact hasProject_of_directoryOf hdirectory

end Content

namespace Site

variable {site : Site} {limits : Limits} {d d' : Disk} {id : Text} {page : Page}
  {report : String} {failure : Failure} {o : Outcome} {outcomes : List (Text × Outcome)}

/-- The limits without those on the directories below a project. -/
def Limits.lax (limits : Limits) : Limits :=
  { limits with page := limits.page.lax, index := limits.index.lax }

/-- A failure that is for the directories below a project. -/
def Failure.IsTooNested (failure : Failure) : Prop := failure = .content .tooNested

/-! ## Pages -/

/-- A page shows the metadata of its project. -/
theorem project_of_buildPage (h : site.buildPage limits d id = .ok page) :
    site.content.project d id limits.page = .ok page.project ∧
      ∃ text files, page = .assemble site.settings page.project text files := by
  obtain ⟨project, hproject, h⟩ := bind_eq_ok.1 h
  obtain ⟨text, -, h⟩ := bind_eq_ok.1 h
  obtain ⟨files, -, h⟩ := bind_eq_ok.1 h
  obtain ⟨shown, -, h⟩ := bind_eq_ok.1 h
  obtain rfl := Except.ok.inj h
  exact ⟨mapError_eq_ok.1 hproject, text, shown, rfl⟩

/-- A page is made only if work may be done at all. -/
theorem concurrency_of_buildPage (h : site.buildPage limits d id = .ok page) :
    1 ≤ site.settings.concurrency := by
  obtain ⟨project, -, h⟩ := bind_eq_ok.1 h
  obtain ⟨text, -, h⟩ := bind_eq_ok.1 h
  obtain ⟨files, -, h⟩ := bind_eq_ok.1 h
  obtain ⟨shown, hshown, -⟩ := bind_eq_ok.1 h
  obtain ⟨extractions, hall, -⟩ := bind_eq_ok.1 hshown
  have hall := mapError_eq_ok.1 hall
  rw [Extraction.extractAll] at hall
  split at hall
  · cases hall
  · rename_i hcapacity
    exact not_lt.1 hcapacity

theorem buildPage_congr_of_depth (h : site.content.SameProject d d' id)
    (hdepth : limits.page.directories ≠ none →
      d'.depthBelow (site.content.directory.child id) =
        d.depthBelow (site.content.directory.child id)) :
    site.buildPage limits d' id = site.buildPage limits d id := by
  rw [buildPage, buildPage, h.project_congr_of_depth hdepth, h.writeUp_congr, h.sources_congr]

/-- A page is made as it is where directories may be nested at will. -/
theorem buildPage_lax (site : Site) (limits : Limits) (d : Disk) (id : Text) :
    AgreesUnless Failure.IsTooNested (site.buildPage limits d id)
      (site.buildPage limits.lax d id) := by
  rw [buildPage, buildPage]
  refine ((site.content.project_lax d id limits.page).mapError ?_).bind fun _ _ => .refl _
  rintro failure rfl
  rfl

theorem buildPage_eq_lax
    (h : limits.page.Admits (d.depthBelow (site.content.directory.child id))) :
    site.buildPage limits d id = site.buildPage limits.lax d id := by
  rw [buildPage, Content.project_eq_lax h]
  rfl

theorem outcome_eq_page_iff :
    site.outcome limits d id = .ok (.inl page) ↔ site.buildPage limits d id = .ok page := by
  rw [outcome]
  cases site.buildPage limits d id with
  | ok page' => simp
  | error failure => cases hreport : failure.report? <;> simp [hreport]

theorem outcome_eq_problem_iff : site.outcome limits d id = .ok (.inr report) ↔
    ∃ failure, site.buildPage limits d id = .error failure ∧ failure.report? = some report := by
  rw [outcome]
  cases site.buildPage limits d id with
  | ok page' => simp
  | error failure => cases hreport : failure.report? <;> simp [hreport]

/-- What becomes of a project depends on its files alone, and on how deep the directories
    among them are nested if there is a limit to it. -/
theorem outcome_congr_of_depth (h : site.content.SameProject d d' id)
    (hdepth : limits.page.directories ≠ none →
      d'.depthBelow (site.content.directory.child id) =
        d.depthBelow (site.content.directory.child id)) :
    site.outcome limits d' id = site.outcome limits d id := by
  rw [outcome, outcome, buildPage_congr_of_depth h hdepth]

theorem outcome_congr (h : site.content.SameProject d d' id) :
    site.outcome limits.lax d' id = site.outcome limits.lax d id :=
  outcome_congr_of_depth h fun hlimit => absurd rfl hlimit

/-- What becomes of a project becomes of it where directories may be nested at will. -/
theorem outcome_lax (site : Site) (limits : Limits) (d : Disk) (id : Text) :
    AgreesUnless Failure.IsTooNested (site.outcome limits d id)
      (site.outcome limits.lax d id) := by
  rw [outcome, outcome]
  rcases site.buildPage_lax limits d id with heq | ⟨failure, rfl, hfails⟩
  · rw [heq]
    exact .refl _
  · rw [hfails]
    exact .of_error rfl

theorem outcome_eq_lax
    (h : limits.page.Admits (d.depthBelow (site.content.directory.child id))) :
    site.outcome limits d id = site.outcome limits.lax d id := by
  rw [outcome, outcome, buildPage_eq_lax h]

/-- The metadata of a project of which something becomes is that of its page, or can
    be read, or is wrong. -/
theorem project_of_outcome (h : site.outcome limits d id = .ok o) :
    (∃ page, o = .inl page ∧ site.content.project d id limits.page = .ok page.project) ∨
      (∃ report, o = .inr report) ∧ ∀ failure,
        site.content.project d id limits.page = .error failure → ∃ e, failure = .invalid e := by
  cases o with
  | inl page => exact .inl ⟨page, rfl, (project_of_buildPage (outcome_eq_page_iff.1 h)).1⟩
  | inr report =>
    refine .inr ⟨⟨report, rfl⟩, fun failure hproject => ?_⟩
    obtain ⟨failure', hbuild, hreport⟩ := outcome_eq_problem_iff.1 h
    have hfails : site.buildPage limits d id = .error (.content failure) :=
      bind_eq_error.2 (.inl (mapError_eq_error.2 ⟨failure, hproject, rfl⟩))
    obtain rfl := Except.error.inj (hbuild.symm.trans hfails)
    cases failure with
    | invalid e => exact ⟨e, rfl⟩
    | undecodable | beyondLimit text refusal | tooNested | disk e => cases hreport

/-- If something becomes of a project, its metadata is read within any limits, unless it is
    beyond one of these or is wrong. -/
theorem isLimit_of_outcome {limits' : Content.Limits} {cause : Content.Failure}
    (h : site.outcome limits d id = .ok o)
    (hfails : site.content.project d id limits' = .error cause) (hcause : ∀ e, cause ≠ .invalid e) :
    Content.IsLimit cause := by
  by_contra hlimit
  have hfails := (site.content.project_agrees d id limits').eq_error hfails hlimit
  rcases project_of_outcome h with ⟨page, -, hpage⟩ | ⟨-, hwrong⟩
  · cases ((site.content.project_agrees d id limits.page).eq_ok hpage).symm.trans hfails
  · rcases site.content.project_agrees d id limits.page with heq | ⟨failure, hlimit', hfails'⟩
    · obtain ⟨e, he⟩ := hwrong cause (heq.trans hfails)
      exact hcause e he
    · obtain ⟨e, rfl⟩ := hwrong failure hfails'
      exact hlimit'

/-! ## All projects -/

/-- Something becomes of each project. -/
theorem of_outcomes (h : site.outcomes limits d = .ok outcomes) :
    site.projects d = .ok (outcomes.map (·.1)) ∧
      ∀ o ∈ outcomes, site.outcome limits d o.1 = .ok o.2 := by
  obtain ⟨ids, hids, h⟩ := bind_eq_ok.1 h
  by_cases hnegative : site.settings.concurrency < 0
  · rw [if_pos hnegative] at h
    cases h
  rw [if_neg hnegative] at h
  by_cases hstalled : site.settings.concurrency = 0 ∧ ids ≠ []
  · rw [if_pos hstalled] at h
    cases h
  rw [if_neg hstalled] at h
  obtain ⟨rfl, heach⟩ := mapM_pair_eq_ok_iff.1 h
  exact ⟨hids, heach⟩

/-- The outcomes are those of the projects in turn. -/
theorem outcomes_eq_mapM (limits : Limits) {ids : List Text}
    (hcapacity : 1 ≤ site.settings.concurrency)
    (hids : site.projects d = .ok ids) :
    site.outcomes limits d = ids.mapM fun id => do return (id, ← site.outcome limits d id) := by
  rw [outcomes, hids, ok_bind, if_neg (by omega), if_neg (by omega)]

/-- Something becomes of each project, unless one cannot be read or the disk fails. -/
theorem exists_of_outcomes_eq_error (hcapacity : 1 ≤ site.settings.concurrency)
    (h : site.outcomes limits d = .error failure) : (∃ e, failure = .disk e) ∨
      ∃ ids, site.projects d = .ok ids ∧ ∃ id ∈ ids, site.outcome limits d id = .error failure := by
  rcases bind_eq_error.1 h with h | ⟨ids, hids, h⟩
  · obtain ⟨e, -, rfl⟩ := mapError_eq_error.1 h
    exact .inl ⟨e, rfl⟩
  rw [if_neg (by omega), if_neg (by omega)] at h
  obtain ⟨id, hid, h⟩ := exists_of_mapM_eq_error h
  rcases bind_eq_error.1 h with h | ⟨_, -, h⟩
  · exact .inr ⟨ids, hids, id, hid, h⟩
  · cases h

/-- What becomes of the projects becomes of them where directories may be nested at will. -/
theorem outcomes_lax (site : Site) (limits : Limits) (d : Disk) :
    AgreesUnless Failure.IsTooNested (site.outcomes limits d) (site.outcomes limits.lax d) := by
  rw [outcomes, outcomes]
  refine (AgreesUnless.refl _).bind fun ids _ => ?_
  split
  · exact .refl _
  · split
    · exact .refl _
    · exact .mapM fun id _ => (site.outcome_lax limits d id).bind fun _ _ => .refl _

end Site

end Marginalia
