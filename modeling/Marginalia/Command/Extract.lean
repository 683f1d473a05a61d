import Marginalia.Command.Basic

/-!
# The command that extracts

Reads one source file and prints the displayed code and the notes on it, or what
is wrong with the file. Status 1 tells that there is no extraction.
-/

namespace Marginalia.Command.Extract

/-- The options of the command. -/
def flags : List Flag := [⟨"--path".toList, .text, true⟩, ⟨"--name".toList, .text, false⟩]

/-- The word for a kind of defect. -/
def kindName : DefectKind → String
  | .malformed => "MalformedMarkerSyntax"
  | .mismatched => "MismatchedClose"
  | .unterminated => "UnterminatedAnnotation"

/-- What is printed of an extraction of the source of that name. -/
def extracted (path : Path) (source : Text) (e : Extraction) : Result where
  ending := .status 0
  output := printed <| .ofFields [
    ("path", .ofText path.text),
    ("code", .ofText e.code),
    ("annotations", .array (e.notes.map Note.record)),
    ("warnings", .array (e.orphans.map (Orphan.record source)))]

/-- What is printed and logged of a defect of the source of that name. -/
def defective (path : Path) (source : Text) (defect : Defect) : Result where
  ending := .status 1
  output := printed <| .ofFields [
    ("path", .ofText path.text),
    ("error", .ofText (defect.describe source).toList),
    ("error_type", .ofText (kindName defect.cause.kind).toList),
    ("line", .ofInt (defect.line + 1))]
  log := [⟨.error, "Extraction failed: " ++ defect.describe source⟩]

/-- What is printed of a file that the disk does not give. -/
def unreadable (path : Path) (e : Disk.Error) : Result where
  ending := .status 1
  output := printed <| .ofFields [
    ("path", .ofText path.text),
    ("error", .ofText ("Failed to read source file: " ++ e.describe).toList)]

/-- The path of the file that arguments ask for. -/
def pathIn? (arguments : Arguments) : Option Path :=
  (arguments.value? "--path").map Path.ofText

/-- The paths that the command looks at. -/
def places (argv : List Text) : List Path :=
  match readArguments flags argv with
  | .error _ => []
  | .ok arguments => (pathIn? arguments).toList

/-- What the command leaves behind for the file at a path, where defects name the
    source. -/
def runOn (detect : Encoding.Detector) (disk : Disk) (path : Path) (source : Text) : Result :=
  match disk.read path with
  | .error e =>
    -- A path with a null character is no path of a source file: the disk is not asked.
    if e.cause = .nullCharacter then { ending := .failed (.disk e) } else unreadable path e
  | .ok bytes =>
    match Encoding.decodeSource? detect bytes with
    | none => { ending := .failed (.content .undecodable) }
    | some text =>
      match Extraction.extract .standard text (some Extraction.searchLimit) with
      | .ok e => extracted path source e
      | .error (.defect defect) => defective path source defect
      | .error failure => { ending := .failed (.extraction failure) }

/-- Runs the command. -/
def run (detect : Encoding.Detector) (disk : Disk) (argv : List Text) : Result :=
  match readArguments flags argv with
  | .error refusal => .refused refusal
  | .ok arguments =>
    match pathIn? arguments with
    | none => { ending := .valueless "--path" }
    | some path => runOn detect disk path ((arguments.given? "--name").getD path.name)

end Marginalia.Command.Extract
