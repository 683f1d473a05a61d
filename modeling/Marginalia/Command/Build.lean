import Marginalia.Command.Basic

/-!
# The command that builds

Publishes a site, within the limits of the program, and prints a report. Status 1 tells
that some project has no page.
-/

namespace Marginalia.Command.Build

/-- The options of the command. -/
def flags : List Flag := directoryFlags ++ [⟨"--production".toList, .nothing, false⟩]

/-- The settings with what options say. -/
def withArguments (arguments : Arguments) (settings : Settings) : Settings :=
  let settings := withDirectories arguments settings
  if (arguments.last? "--production").isSome then
    { settings with environment := Settings.production }
  else settings

/-- The paths that the command looks at. -/
def places (env : Settings.Environment) (argv : List Text) : List Path :=
  match readArguments flags argv, Settings.ofEnvironment env with
  | .ok arguments, .ok settings => (withArguments arguments settings).places
  | _, _ => []

/-- What came of the command. -/
inductive Outcome
  | ended (result : Result)
  | built (report : Site.Report)

/-- What the command leaves behind, if the build took so many milliseconds. -/
def Outcome.result (duration : Nat) : Outcome → Result
  | ended result => result
  | built report => {
      ending := .status (if report.problems.isEmpty then 0 else 1)
      output := printed (report.record duration) }

/-- Runs the command on a disk. -/
def run (env : Settings.Environment) (detect : Encoding.Detector) (argv : List Text)
    (disk : Disk) : Outcome × Disk :=
  match readArguments flags argv with
  | .error refusal => (.ended (.refused refusal), disk)
  | .ok arguments =>
    match Settings.ofEnvironment env with
    | .error unfit => (.ended (.misconfigured unfit), disk)
    | .ok settings =>
      match Site.build ⟨withArguments arguments settings, detect⟩ .standard disk with
      | .ok report disk => (.built report, disk)
      | .error failure disk => (.ended { ending := .failed failure }, disk)

end Marginalia.Command.Build
