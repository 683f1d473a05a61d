import Marginalia.Command.Arguments
import Marginalia.Site.Publication

/-!
# Commands

What all commands share: what they leave behind when they end, the lines they
log, and the settings they take from environment variables and options.
-/

namespace Marginalia.Command

/-- How much a line of the log matters. -/
inductive Level
  | info
  | error
  deriving DecidableEq, Repr

/-- The word for a level. -/
def Level.name : Level → String
  | info => "INFO"
  | error => "ERROR"

/-- A line of the log. -/
structure LogLine where
  level : Level
  message : String
  deriving DecidableEq, Repr

/-- The line with its level. -/
def LogLine.text (line : LogLine) : String := line.level.name ++ " " ++ line.message

/-- How a command ends. -/
inductive Ending
  | status (code : Nat)
  /-- Its arguments are not read. -/
  | refused (refusal : Refusal)
  /-- It needs the value of an option that was given none. -/
  | valueless (name : String)
  /-- There is a failure that it does not handle. -/
  | failed (failure : Site.Failure)

/-- What a command leaves behind. -/
structure Result where
  ending : Ending
  /-- What it prints. -/
  output : Text := []
  log : List LogLine := []

/-- What a command leaves behind whose arguments are not read. -/
def Result.refused (refusal : Refusal) : Result := { ending := .refused refusal }

/-- What a command prints of a record. -/
def printed (record : Json) : Text := record.writePlain ++ ['\n']

/-- The options for the directories of a site. -/
def directoryFlags : List Flag :=
  [⟨"--content-dir".toList, .text, false⟩, ⟨"--output-dir".toList, .text, false⟩]

/-- The settings with the directories that options give. -/
def withDirectories (arguments : Arguments) (settings : Settings) : Settings :=
  { settings with
    contentDir := ((arguments.given? "--content-dir").map Path.ofText).getD settings.contentDir
    outputDir := ((arguments.given? "--output-dir").map Path.ofText).getD settings.outputDir }

/-- What a command leaves behind whose settings are unfit. -/
def Result.misconfigured (unfit : Settings.Unfit) : Result where
  ending := .status 2
  log := [⟨.error, "Configuration error: " ++ unfit.message⟩]

/-- What a failure that no command handles is told as. -/
def describeFailure : Site.Failure → String
  | .content (.invalid e) => e.describe
  | .content .undecodable => "A file is no text in the encoding it is taken for"
  | .content (.beyondLimit text refusal) => refusal.describe text
  | .content .tooNested => "Directories are nested too deeply"
  | .content (.disk e) | .disk e => e.describe
  | .page e => e.describe
  | .noCapacity e => e.message
  | .negativeCapacity => "Semaphore initial value must be >= 0"
  | .stalled => "No project may be worked on at a time"
  | .unencodable => "Half a surrogate pair cannot be written"
  | .extraction (.defect defect) => defect.cause.message
  | .extraction (.fault .tooDeep) => "Notes are nested too deeply"
  | .extraction _ => "A source file cannot be extracted"

end Marginalia.Command
