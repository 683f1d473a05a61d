import Marginalia.Decimal.Basic

/-!
# Arguments

How commands read their arguments. An option is a word with two hyphens, or as
much of one as no other option starts with. Its value is the next argument or
follows an equals sign; of several values the last counts. The mark of two hyphens
says that no option follows; after an equals sign it stands for no value at all. An
argument that looks like an option is no value, unless it is a negative number or
has a space in it. There are no other arguments, so anything else is misuse. Asking
for help ends the reading of the arguments.
-/

namespace Marginalia.Command

/-- What an option takes. -/
inductive Takes
  | nothing
  | text
  | number
  /-- Nothing, as it asks for help. -/
  | help
  deriving DecidableEq, Repr

/-- An option of a command. -/
structure Flag where
  name : Text
  takes : Takes
  /-- Whether the command needs it. -/
  required : Bool := false
  deriving DecidableEq, Repr

/-- The option that asks for help. -/
def Flag.help : Flag := ⟨"--help".toList, .help, false⟩

/-- Why arguments are not read. -/
inductive Refusal
  /-- Help was asked for. -/
  | help
  | ambiguous (argument : Text)
  | valueMissing (name : Text)
  | valueUnexpected (name : Text)
  | notNumber (name : Text)
  | unrecognized
  | flagMissing (name : Text)
  deriving DecidableEq, Repr

/-- The status a command ends with if its arguments are not read. -/
def Refusal.status : Refusal → Nat
  | help => 0
  | _ => 2

/-- What a refusal is told as. -/
def Refusal.message : Refusal → String
  | help => "Options take a value after a blank or an equals sign."
  | ambiguous argument => "ambiguous option: " ++ String.ofList argument
  | valueMissing name => "argument " ++ String.ofList name ++ ": expected a value"
  | valueUnexpected name => "argument " ++ String.ofList name ++ ": takes no value"
  | notNumber name => "argument " ++ String.ofList name ++ ": expected a number"
  | unrecognized => "unrecognized arguments"
  | flagMissing name => "argument " ++ String.ofList name ++ ": required"

/-- What an argument is by its looks. -/
inductive Token
  /-- An option, with the value that follows its equals sign. -/
  | flag (flag : Flag) (attached : Option Text)
  /-- Something that could be a value. -/
  | value (text : Text)
  /-- Neither: an unknown option, or the mark that no option follows. -/
  | stray
  deriving DecidableEq, Repr

/-! ## The looks of an argument -/

/-- The mark that no option follows. -/
def mark : Text := ['-', '-']

/-- A hyphen and a number, in decimal digits with at most one point, which a digit
    follows. -/
def isNegativeNumber (s : Text) : Bool :=
  let s := if s.getLast? = some '\n' then s.dropLast else s
  let isDigit (c : Char) : Bool := (Text.digit? c).isSome
  match s with
  | '-' :: number =>
    match number.dropWhile isDigit with
    | [] => !number.isEmpty
    | '.' :: fraction => !fraction.isEmpty && fraction.all isDigit
    | _ => false
  | _ => false

/-- The word of an option and the value that follows an equals sign. -/
def splitAttached (s : Text) : Text × Option Text :=
  match s.dropWhile (· != '=') with
  | [] => (s, none)
  | _ :: value => (s.takeWhile (· != '='), some value)

/-- What an argument is that is no option in full. -/
def unmatched (s : Text) : Token :=
  if isNegativeNumber s || s.contains ' ' then .value s else .stray

/-- What an argument with two hyphens is: an option in full or in part. -/
def readLong (flags : List Flag) (s : Text) : Except Refusal Token :=
  match flags.find? (·.name == s) with
  | some flag => .ok (.flag flag none)
  | none =>
    let (word, attached) := splitAttached s
    match flags.find? (·.name == word), flags.filter (word.isPrefixOf ·.name) with
    | some flag, _ => .ok (.flag flag attached)
    | none, [] => .ok (unmatched s)
    | none, [flag] => .ok (.flag flag attached)
    | none, _ => .error (.ambiguous s)

/-- The letters that come after the letter for help, where an equals sign may stand
    before them. -/
def lettersAfter : Text → Text
  | '=' :: c :: rest => c :: rest
  | rest => rest

/-- What an argument is that starts with the letter for help: the option, if no
    other letter comes after it, and else the option with a value. -/
def readHelp (rest : Text) : Token :=
  .flag .help (if (lettersAfter rest).all (· == 'h') then none else some rest)

/-- What an argument before the mark is. -/
def readToken (flags : List Flag) (s : Text) : Except Refusal Token :=
  match s with
  | '-' :: 'h' :: rest => .ok (readHelp rest)
  | '-' :: '-' :: _ => readLong flags s
  | '-' :: _ :: _ => .ok (unmatched s)
  | _ => .ok (.value s)

/-- What the arguments are. After the mark of two hyphens all could be values. -/
def readTokens (flags : List Flag) : List Text → Except Refusal (List Token)
  | [] => .ok []
  | s :: rest =>
    if s = mark then .ok (.stray :: rest.map .value)
    else do return (← readToken flags s) :: (← readTokens flags rest)

/-! ## Values -/

/-- The options that are given, in the order of the arguments, with their values.
    An option has none that takes none, or is given the mark. -/
abbrev Arguments := List (Text × Option Text)

/-- The value after an equals sign, unless it is the mark. -/
def attachedValue? (attached : Text) : Option Text :=
  if attached = mark then none else some attached

/-- An option that is given, with its value. A number must be one. -/
def given (flag : Flag) (value : Option Text) : Except Refusal (Text × Option Text) :=
  if flag.takes = .number ∧ value.any (fun v => (Quantity.read? v).isNone) then
    .error (.notNumber flag.name)
  else .ok (flag.name, value)

/-- Whether an option takes a value. -/
def Flag.takesValue (flag : Flag) : Bool := flag.takes == .text || flag.takes == .number

/-- An option with its value added to those that further arguments give. -/
def addGiven (flag : Flag) (value : Option Text) (more : Except Refusal (Arguments × Bool)) :
    Except Refusal (Arguments × Bool) := do
  let first ← given flag value
  let (arguments, strays) ← more
  return (first :: arguments, strays)

/-- An option that no value comes after added to those that further arguments
    give. -/
def addBare (flag : Flag) (more : Except Refusal (Arguments × Bool)) :
    Except Refusal (Arguments × Bool) :=
  match flag.takes with
  | .help => .error .help
  | .nothing => addGiven flag none more
  | _ => .error (.valueMissing flag.name)

/-- The options that the arguments give, and whether there is anything else among
    them. -/
def collect : List Token → Except Refusal (Arguments × Bool)
  | [] => .ok ([], false)
  | .flag flag (some attached) :: rest =>
    if flag.takesValue then addGiven flag (attachedValue? attached) (collect rest)
    else .error (.valueUnexpected flag.name)
  | .flag flag none :: .value value :: rest =>
    if flag.takesValue then addGiven flag (some value) (collect rest)
    else addBare flag (collect (.value value :: rest))
  | .flag flag none :: rest => addBare flag (collect rest)
  | _ :: rest => do return ((← collect rest).1, true)

/-- The options that arguments give, with their values. -/
def readArguments (flags : List Flag) (argv : List Text) : Except Refusal Arguments := do
  let (arguments, strays) ← collect (← readTokens (.help :: flags) argv)
  match flags.find? fun flag => flag.required && (arguments.lookup flag.name).isNone with
  | some flag => throw (.flagMissing flag.name)
  | none => if strays then throw .unrecognized else return arguments

/-- What an option was given last: its value, or nothing in place of one. -/
def Arguments.last? (arguments : Arguments) (name : String) : Option (Option Text) :=
  arguments.reverse.lookup name.toList

/-- The last value of an option. -/
def Arguments.value? (arguments : Arguments) (name : String) : Option Text :=
  (arguments.last? name).join

/-- The last value of an option, if it is not empty. -/
def Arguments.given? (arguments : Arguments) (name : String) : Option Text :=
  (arguments.value? name).filter (!·.isEmpty)

end Marginalia.Command
