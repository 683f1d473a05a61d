import Marginalia.Page.Basic
import Marginalia.Proofs.Page.Url
import Marginalia.Proofs.Result

/-!
# Settings that are read

Reading settings checks one variable after another. What each check lets through, and
what is so where it refuses, makes what the settings are as a whole
(`ofEnvironment_eq_ok_iff`) and what is so where they are not read
(`isSo_of_ofEnvironment`).

The scheme of a link is checked before the slashes at its end are dropped. A scheme with
nothing but slashes after it (`IsBareScheme`) loses its own slashes there, and is the only
link that does not keep its scheme (`startsWithAny_dropEndWhile_iff`).

* `exists_unfit_or_isValid`: settings that are read are valid.
-/

namespace Marginalia.Settings

variable {env : Environment} {settings : Settings} {u : Unfit} {v : Variable}
  {value url environment : Text} {n : Int}

/-! ## The checks -/

/-- What an unfit variable is told as is so. -/
def Unfit.IsSo (env : Environment) : Unfit → Prop
  | .empty v => valueOf env v = []
  | .notUrl v => Text.startsWithAny schemes (valueOf env v) = false
  | .notInteger v => Text.integer? (valueOf env v) = none
  | .notPositive v => ∃ n < 1, Text.integer? (valueOf env v) = some n
  | .unknownEnvironment => Text.lower (valueOf env .environment) ∉ [development, production]

theorem someValueOf_eq_ok_iff :
    someValueOf env v = .ok value ↔ value ≠ [] ∧ value = valueOf env v := by
  rw [someValueOf]
  split
  · rename_i hempty
    rw [hempty]
    exact ⟨nofun, fun h => absurd h.2 h.1⟩
  · rename_i hne
    exact ⟨fun h => Except.ok.inj h ▸ ⟨hne, rfl⟩, fun h => congrArg _ h.2.symm⟩

theorem isSo_of_someValueOf (h : someValueOf env v = .error u) : u.IsSo env := by
  rw [someValueOf] at h
  split at h
  · rename_i hempty
    obtain rfl := Except.error.inj h
    exact hempty
  · cases h

theorem urlOf_eq_ok_iff : urlOf env v = .ok url ↔
    Text.startsWithAny schemes (valueOf env v) = true ∧
      url = Text.dropEndWhile (· == '/') (valueOf env v) := by
  rw [urlOf, bind_eq_ok]
  constructor
  · rintro ⟨value, hvalue, h⟩
    obtain ⟨-, rfl⟩ := someValueOf_eq_ok_iff.1 hvalue
    split at h
    · rename_i hstarts
      exact ⟨hstarts, (Except.ok.inj h).symm⟩
    · cases h
  · rintro ⟨hstarts, rfl⟩
    have hne : valueOf env v ≠ [] := fun hempty => by rw [hempty] at hstarts; cases hstarts
    exact ⟨_, someValueOf_eq_ok_iff.2 ⟨hne, rfl⟩, if_pos hstarts⟩

theorem isSo_of_urlOf (h : urlOf env v = .error u) : u.IsSo env := by
  rcases bind_eq_error.1 h with h | ⟨value, hvalue, h⟩
  · exact isSo_of_someValueOf h
  · obtain ⟨-, rfl⟩ := someValueOf_eq_ok_iff.1 hvalue
    split at h
    · cases h
    · rename_i hstarts
      obtain rfl := Except.error.inj h
      exact Bool.eq_false_iff.2 hstarts

theorem positiveOf_eq_ok_iff :
    positiveOf env v = .ok n ↔ Text.integer? (valueOf env v) = some n ∧ 1 ≤ n := by
  rw [positiveOf, bind_eq_ok]
  constructor
  · rintro ⟨value, hvalue, h⟩
    obtain ⟨-, rfl⟩ := someValueOf_eq_ok_iff.1 hvalue
    split at h
    · cases h
    · rename_i m hm
      split at h
      · cases h
      · rename_i hpositive
        obtain rfl := Except.ok.inj h
        exact ⟨hm, Int.not_lt.1 hpositive⟩
  · rintro ⟨hn, hpositive⟩
    have hne : valueOf env v ≠ [] := fun hempty => by rw [hempty] at hn; cases hn
    refine ⟨_, someValueOf_eq_ok_iff.2 ⟨hne, rfl⟩, ?_⟩
    rw [hn]
    exact if_neg (Int.not_lt.2 hpositive)

theorem isSo_of_positiveOf (h : positiveOf env v = .error u) : u.IsSo env := by
  rcases bind_eq_error.1 h with h | ⟨value, hvalue, h⟩
  · exact isSo_of_someValueOf h
  · obtain ⟨-, rfl⟩ := someValueOf_eq_ok_iff.1 hvalue
    split at h
    · rename_i hnone
      obtain rfl := Except.error.inj h
      exact hnone
    · rename_i m hm
      split at h
      · rename_i hlt
        obtain rfl := Except.error.inj h
        exact ⟨m, hlt, hm⟩
      · cases h

theorem environmentOf_eq_ok_iff : environmentOf env = .ok environment ↔
    environment ∈ [development, production] ∧
      environment = Text.lower (valueOf env .environment) := by
  rw [environmentOf, List.mem_pair]
  split
  · rename_i hknown
    exact ⟨fun h => Except.ok.inj h ▸ ⟨hknown, rfl⟩, fun h => congrArg _ h.2.symm⟩
  · rename_i hunknown
    exact ⟨nofun, fun h => absurd (h.2 ▸ h.1) hunknown⟩

theorem isSo_of_environmentOf (h : environmentOf env = .error u) : u.IsSo env := by
  rw [environmentOf] at h
  split at h
  · cases h
  · rename_i hunknown
    obtain rfl := Except.error.inj h
    rwa [Unfit.IsSo, List.mem_pair]

/-! ## The settings as a whole -/

/-- Each variable is fit for its setting, which is made of it. -/
structure IsRead (env : Environment) (settings : Settings) : Prop where
  contentDir_ne : valueOf env .contentDir ≠ []
  contentDir : settings.contentDir = .ofText (valueOf env .contentDir)
  outputDir_ne : valueOf env .outputDir ≠ []
  outputDir : settings.outputDir = .ofText (valueOf env .outputDir)
  environment : settings.environment ∈ [development, production]
  environment_eq : settings.environment = Text.lower (valueOf env .environment)
  imageUrl_starts : Text.startsWithAny schemes (valueOf env .imageUrl) = true
  imageUrl : settings.imageUrl = Text.dropEndWhile (· == '/') (valueOf env .imageUrl)
  repositoryUrl_starts : Text.startsWithAny schemes (valueOf env .repositoryUrl) = true
  repositoryUrl :
    settings.repositoryUrl = Text.dropEndWhile (· == '/') (valueOf env .repositoryUrl)
  integer? : Text.integer? (valueOf env .concurrency) = some settings.concurrency
  one_le_concurrency : 1 ≤ settings.concurrency

theorem ofEnvironment_eq_ok_iff :
    ofEnvironment env = .ok settings ↔ IsRead env settings := by
  constructor
  · intro h
    obtain ⟨contentDir, hcontent, h⟩ := bind_eq_ok.1 h
    obtain ⟨outputDir, houtput, h⟩ := bind_eq_ok.1 h
    obtain ⟨environment, henvironment, h⟩ := bind_eq_ok.1 h
    obtain ⟨imageUrl, himage, h⟩ := bind_eq_ok.1 h
    obtain ⟨repositoryUrl, hrepository, h⟩ := bind_eq_ok.1 h
    obtain ⟨concurrency, hconcurrency, h⟩ := bind_eq_ok.1 h
    obtain rfl := Except.ok.inj h
    obtain ⟨hcontent, rfl⟩ := someValueOf_eq_ok_iff.1 hcontent
    obtain ⟨houtput, rfl⟩ := someValueOf_eq_ok_iff.1 houtput
    obtain ⟨henvironment, heq⟩ := environmentOf_eq_ok_iff.1 henvironment
    obtain ⟨himage, himageEq⟩ := urlOf_eq_ok_iff.1 himage
    obtain ⟨hrepository, hrepositoryEq⟩ := urlOf_eq_ok_iff.1 hrepository
    obtain ⟨hinteger, hpositive⟩ := positiveOf_eq_ok_iff.1 hconcurrency
    exact ⟨hcontent, rfl, houtput, rfl, henvironment, heq, himage, himageEq, hrepository,
      hrepositoryEq, hinteger, hpositive⟩
  · intro h
    refine bind_eq_ok.2 ⟨_, someValueOf_eq_ok_iff.2 ⟨h.contentDir_ne, rfl⟩, ?_⟩
    refine bind_eq_ok.2 ⟨_, someValueOf_eq_ok_iff.2 ⟨h.outputDir_ne, rfl⟩, ?_⟩
    refine bind_eq_ok.2 ⟨_, environmentOf_eq_ok_iff.2 ⟨h.environment, h.environment_eq⟩, ?_⟩
    refine bind_eq_ok.2 ⟨_, urlOf_eq_ok_iff.2 ⟨h.imageUrl_starts, h.imageUrl⟩, ?_⟩
    refine bind_eq_ok.2 ⟨_, urlOf_eq_ok_iff.2 ⟨h.repositoryUrl_starts, h.repositoryUrl⟩, ?_⟩
    refine bind_eq_ok.2 ⟨_, positiveOf_eq_ok_iff.2 ⟨h.integer?, h.one_le_concurrency⟩, ?_⟩
    rw [← h.contentDir, ← h.outputDir]
    rfl

/-- Settings that are not read are refused for a reason. -/
theorem isSo_of_ofEnvironment (h : ofEnvironment env = .error u) : u.IsSo env := by
  rcases bind_eq_error.1 h with h | ⟨_, -, h⟩
  · exact isSo_of_someValueOf h
  rcases bind_eq_error.1 h with h | ⟨_, -, h⟩
  · exact isSo_of_someValueOf h
  rcases bind_eq_error.1 h with h | ⟨_, -, h⟩
  · exact isSo_of_environmentOf h
  rcases bind_eq_error.1 h with h | ⟨_, -, h⟩
  · exact isSo_of_urlOf h
  rcases bind_eq_error.1 h with h | ⟨_, -, h⟩
  · exact isSo_of_urlOf h
  rcases bind_eq_error.1 h with h | ⟨_, -, h⟩
  · exact isSo_of_positiveOf h
  · cases h

/-! ## The schemes of links -/

/-- A scheme with nothing but slashes after it. -/
def IsBareScheme (value : Text) : Prop :=
  ∃ scheme ∈ schemes, ∃ slashes, (∀ c ∈ slashes, c = '/') ∧ value = scheme ++ slashes

theorem startsWithAny_dropEndWhile_scheme : ∀ scheme ∈ schemes,
    Text.startsWithAny schemes (Text.dropEndWhile (· == '/') scheme) = false := by decide

/-- Without the slashes at its end, a link keeps its scheme if there is something after it. -/
theorem startsWithAny_dropEndWhile_iff (h : Text.startsWithAny schemes value = true) :
    Text.startsWithAny schemes (Text.dropEndWhile (· == '/') value) = true ↔
      ¬IsBareScheme value := by
  constructor
  · rintro hstarts ⟨scheme, hscheme, slashes, hslashes, rfl⟩
    rw [Text.dropEndWhile_append_of_pos fun c hc => beq_iff_eq.2 (hslashes c hc),
      startsWithAny_dropEndWhile_scheme scheme hscheme] at hstarts
    cases hstarts
  · intro hbare
    obtain ⟨scheme, hscheme, rest, rfl⟩ := Text.startsWithAny_eq_true_iff.1 h
    obtain ⟨c, hc, hne⟩ : ∃ c ∈ rest, c ≠ '/' := by
      by_contra! hslashes
      exact hbare ⟨scheme, hscheme, rest, hslashes, rfl⟩
    obtain ⟨before, after, rfl⟩ := List.append_of_mem hc
    have hdrop := Text.dropEndWhile_append_cons (p := (· == '/'))
      (fun hslash => hne (beq_iff_eq.1 hslash)) (scheme ++ before) after
    rw [← List.append_assoc, hdrop, List.append_assoc]
    exact Text.startsWithAny_eq_true_iff.2 ⟨scheme, hscheme, List.prefix_append ..⟩

/-- The link `url` is the value of a variable without the slashes at its end, and has a scheme if
    there is more than that in the value. -/
structure IsLinkOf (value url : Text) : Prop where
  starts : Text.startsWithAny schemes value = true
  eq_append : ∃ slashes, (∀ c ∈ slashes, c = '/') ∧ value = url ++ slashes
  getLast?_ne : url.getLast? ≠ some '/'
  scheme_iff : Text.startsWithAny schemes url = true ↔ ¬IsBareScheme value

theorem isLinkOf_dropEndWhile (h : Text.startsWithAny schemes value = true) :
    IsLinkOf value (Text.dropEndWhile (· == '/') value) where
  starts := h
  eq_append := ⟨value.rtakeWhile (· == '/'),
    fun _ hc => beq_iff_eq.1 (List.mem_rtakeWhile_imp (p := (· == '/')) hc),
    List.rdropWhile_append_rtakeWhile.symm⟩
  getLast?_ne hlast := Text.not_of_getLast?_dropEndWhile hlast rfl
  scheme_iff := startsWithAny_dropEndWhile_iff h

/-! ## Valid settings -/

/-- The directories are those that are given, what the site is built for is known and some
    project is worked on at a time. A link of more than a scheme keeps its scheme, and so do the
    links that start with it. -/
structure IsValid (env : Environment) (settings : Settings) : Prop where
  contentDir : valueOf env .contentDir ≠ [] ∧
    settings.contentDir = .ofText (valueOf env .contentDir)
  outputDir : valueOf env .outputDir ≠ [] ∧ settings.outputDir = .ofText (valueOf env .outputDir)
  environment : settings.environment = development ∨ settings.environment = production
  concurrency : 1 ≤ settings.concurrency
  imageUrl : IsLinkOf (valueOf env .imageUrl) settings.imageUrl
  repositoryUrl : IsLinkOf (valueOf env .repositoryUrl) settings.repositoryUrl
  ofImage : ¬IsBareScheme (valueOf env .imageUrl) → settings.isProduction = true →
    ∀ limits id path, Url.isAbsolute path = false →
      Text.startsWithAny schemes (Url.ofImage settings limits id path) = true
  sourceUrl : ¬IsBareScheme (valueOf env .repositoryUrl) → ∀ project text files,
    Text.startsWithAny schemes (Page.assemble settings project text files).sourceUrl = true

theorem startsWithAny_ofImage (h : Text.startsWithAny schemes settings.imageUrl = true)
    (hproduction : settings.isProduction = true) {path : Text}
    (hpath : Url.isAbsolute path = false) (limits : Url.Limits) (id : Text) :
    Text.startsWithAny schemes (Url.ofImage settings limits id path) = true := by
  rw [Url.ofImage, hpath, hproduction, Bool.not_true, Bool.or_false, if_neg Bool.false_ne_true,
    List.append_assoc]
  exact Text.startsWithAny_append h _

theorem IsRead.isValid (h : IsRead env settings) : IsValid env settings := by
  have himage : IsLinkOf (valueOf env .imageUrl) settings.imageUrl :=
    h.imageUrl ▸ isLinkOf_dropEndWhile h.imageUrl_starts
  have hrepository : IsLinkOf (valueOf env .repositoryUrl) settings.repositoryUrl :=
    h.repositoryUrl ▸ isLinkOf_dropEndWhile h.repositoryUrl_starts
  exact {
    contentDir := ⟨h.contentDir_ne, h.contentDir⟩
    outputDir := ⟨h.outputDir_ne, h.outputDir⟩
    environment := List.mem_pair.1 h.environment
    concurrency := h.one_le_concurrency
    imageUrl := himage
    repositoryUrl := hrepository
    ofImage hbare hproduction limits id path hpath :=
      startsWithAny_ofImage (himage.scheme_iff.2 hbare) hproduction hpath limits id
    sourceUrl hbare _ _ _ := Text.startsWithAny_append (hrepository.scheme_iff.2 hbare) _ }

/-- Reading settings answers with what is wrong with a variable or with valid settings. -/
theorem exists_unfit_or_isValid (env : Environment) :
    (∃ u, ofEnvironment env = .error u ∧ u.IsSo env) ∨
      ∃ settings, ofEnvironment env = .ok settings ∧ IsValid env settings := by
  cases h : ofEnvironment env with
  | error u => exact .inl ⟨u, rfl, isSo_of_ofEnvironment h⟩
  | ok settings => exact .inr ⟨settings, rfl, (ofEnvironment_eq_ok_iff.1 h).isValid⟩

-- The values that variables have where they are not set are fit.
example : ofEnvironment [] = .ok standard := by decide +kernel

/-- A scheme alone is let through, and what is left of it is none. -/
theorem bare_scheme_is_read :
    ∃ settings, ofEnvironment [("SKETCHBOOK_IMAGE_CDN_URL".toList, "https://".toList)] =
        .ok settings ∧
      settings.imageUrl = "https:".toList ∧
      Text.startsWithAny schemes settings.imageUrl = false :=
  ⟨{ standard with imageUrl := "https:".toList }, by decide +kernel, rfl, by decide +kernel⟩

end Marginalia.Settings
