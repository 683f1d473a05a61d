import Marginalia.Disk.Path
import Marginalia.Text.Lower
import Marginalia.Text.Numeral
import Marginalia.Text.Quoted

/-!
# Settings

Where a site is read from and written to, how its links are made, and how many
projects are worked on at a time. Settings are read from environment variables,
each with a default; the first variable that is not fit for its setting is told.
-/

namespace Marginalia

/-- The settings of a site. -/
structure Settings where
  /-- The directory with a directory for each project. -/
  contentDir : Path
  /-- The directory the pages are written to. -/
  outputDir : Path
  /-- What the site is built for. -/
  environment : Text
  /-- The base of the links to images in production. -/
  imageUrl : Text
  /-- The base of the links to the sources of projects. -/
  repositoryUrl : Text
  /-- The number of projects worked on at a time. -/
  concurrency : Int
  deriving DecidableEq, Repr

namespace Settings

/-- The variables that settings are read from. -/
inductive Variable
  | contentDir
  | outputDir
  | environment
  | imageUrl
  | repositoryUrl
  | concurrency
  deriving DecidableEq, Repr

/-- The name of a variable. -/
def Variable.name : Variable → String
  | contentDir => "SKETCHBOOK_CONTENT_DIR"
  | outputDir => "SKETCHBOOK_OUTPUT_DIR"
  | environment => "SKETCHBOOK_ENV"
  | imageUrl => "SKETCHBOOK_IMAGE_CDN_URL"
  | repositoryUrl => "SKETCHBOOK_REPOSITORY_URL"
  | concurrency => "SKETCHBOOK_BUILD_CONCURRENCY"

/-- The value a variable has where it is not set. -/
def Variable.fallback : Variable → String
  | contentDir => "content"
  | outputDir => ".sketchbook-build"
  | environment => "development"
  | imageUrl => "https://ik.imagekit.io/tlnjt5rshw"
  | repositoryUrl => "https://github.com/wokwi/good-arduino-code/tree/master/content"
  | concurrency => "8"

/-- What makes a variable unfit. -/
inductive Unfit
  | empty (name : Variable)
  | notUrl (name : Variable)
  | notInteger (name : Variable)
  | notPositive (name : Variable)
  | unknownEnvironment
  deriving DecidableEq, Repr

/-- What an unfit variable is told as. -/
def Unfit.message : Unfit → String
  | empty v => v.name ++ " cannot be empty"
  | notUrl v => v.name ++ " must start with http:// or https://"
  | notInteger v => v.name ++ " must be an integer"
  | notPositive v => v.name ++ " must be >= 1"
  | unknownEnvironment =>
    Variable.environment.name ++ " must be 'development' or 'production'"

/-- The variables that are set, by name, with their values. -/
abbrev Environment := List (Text × Text)

/-- The value of a variable without the blanks around it. -/
def valueOf (env : Environment) (v : Variable) : Text :=
  ((env.lookup v.name.toList).getD v.fallback.toList).strip

/-- The value of a variable that must not be empty. -/
def someValueOf (env : Environment) (v : Variable) : Except Unfit Text :=
  match valueOf env v with
  | [] => .error (.empty v)
  | value => .ok value

/-- What the links of the web start with. -/
def schemes : List Text := ["http://".toList, "https://".toList]

/-- The value of a variable that must be a link, without slashes at its end. -/
def urlOf (env : Environment) (v : Variable) : Except Unfit Text := do
  let value ← someValueOf env v
  if Text.startsWithAny schemes value then return Text.dropEndWhile (· == '/') value
  else throw (.notUrl v)

/-- The value of a variable that must be a positive number. -/
def positiveOf (env : Environment) (v : Variable) : Except Unfit Int := do
  match Text.integer? (← someValueOf env v) with
  | none => throw (.notInteger v)
  | some n => if n < 1 then throw (.notPositive v) else return n

/-- The word for the site that readers see. -/
def production : Text := "production".toList

/-- The word for a site that is being written. -/
def development : Text := "development".toList

/-- The value of the variable for what the site is built for. -/
def environmentOf (env : Environment) : Except Unfit Text :=
  let value := Text.lower (valueOf env .environment)
  if value = development ∨ value = production then .ok value else .error .unknownEnvironment

/-- The settings that the variables make. -/
def ofEnvironment (env : Environment) : Except Unfit Settings := do
  let contentDir ← someValueOf env .contentDir
  let outputDir ← someValueOf env .outputDir
  let environment ← environmentOf env
  let imageUrl ← urlOf env .imageUrl
  let repositoryUrl ← urlOf env .repositoryUrl
  let concurrency ← positiveOf env .concurrency
  return {
    contentDir := .ofText contentDir
    outputDir := .ofText outputDir
    environment, imageUrl, repositoryUrl, concurrency }

/-- The settings where no variable is set. -/
def standard : Settings where
  contentDir := .ofText Variable.contentDir.fallback.toList
  outputDir := .ofText Variable.outputDir.fallback.toList
  environment := Variable.environment.fallback.toList
  imageUrl := Variable.imageUrl.fallback.toList
  repositoryUrl := Variable.repositoryUrl.fallback.toList
  concurrency := 8

/-- The directories that a site is read from and written to. -/
def places (settings : Settings) : List Path := [settings.contentDir, settings.outputDir]

/-- Whether the site is built for its readers. -/
def isProduction (settings : Settings) : Bool := settings.environment == production

end Settings

end Marginalia
