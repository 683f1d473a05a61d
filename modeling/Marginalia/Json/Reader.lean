import Marginalia.Json.Basic

/-!
# Reading JSON

Reading a JSON value from a text. Besides the numbers of JSON the words `NaN`,
`Infinity` and `-Infinity` are numbers. What cannot be read is told with its
place: the line, the column and the number of characters before it. A text may
spell out half a surrogate pair, and is then a loose text.

A whole number has at most 4300 digits. There may also be a limit to how deep values
are nested.
-/

namespace Marginalia.Json

/-- What is wrong at some place of a text. -/
inductive Flaw
  | byteOrderMark
  | noValue
  | noName
  | noColon
  | noComma
  | extraData
  | controlCharacter
  | unterminatedText
  | unknownEscape
  | badUnitEscape
  deriving DecidableEq, Repr

/-- What a flaw is told as. -/
def Flaw.message : Flaw → String
  | byteOrderMark => "Unexpected UTF-8 BOM (decode using utf-8-sig)"
  | noValue => "Expecting value"
  | noName => "Expecting property name enclosed in double quotes"
  | noColon => "Expecting ':' delimiter"
  | noComma => "Expecting ',' delimiter"
  | extraData => "Extra data"
  | controlCharacter => "Invalid control character at"
  | unterminatedText => "Unterminated string starting at"
  | unknownEscape => "Invalid \\escape"
  | badUnitEscape => "Invalid \\uXXXX escape"

/-- Why a text is not read. -/
inductive Refusal
  /-- The text is no JSON, for what is found after that many characters. -/
  | malformed (flaw : Flaw) (position : Nat)
  /-- The text holds a whole number of too many digits. -/
  | tooManyDigits (count : Nat)
  /-- The text holds values that are nested too deeply. -/
  | tooDeep
  deriving DecidableEq, Repr

/-- The most digits a whole number may have. -/
def digitLimit : Nat := 4300

/-- Whether a refusal is for a limit, so that the text may be JSON all the same. -/
def Refusal.isLimit : Refusal → Bool
  | malformed _ _ => false
  | tooManyDigits _ | tooDeep => true

/-- What a refusal of the text is told as. -/
def Refusal.describe (text : Text) : Refusal → String
  | malformed flaw position =>
    let before := text.take position
    flaw.message ++ ": line " ++ toString (before.count '\n' + 1) ++ " column " ++
      toString ((before.reverse.takeWhile (· != '\n')).length + 1) ++
      " (char " ++ toString position ++ ")"
  | tooManyDigits count =>
    "Exceeds the limit (" ++ toString digitLimit ++
      " digits) for integer string conversion: value has " ++ toString count ++
      " digits; use sys.set_int_max_str_digits() to increase the limit"
  | tooDeep => "Values are nested too deeply"

/-- A place in a text: the number of characters before it and the ones from it
    on. -/
structure Place where
  position : Nat
  rest : Text

namespace Place

/-- The place `n` characters further on. -/
def skip (p : Place) (n : Nat) : Place := ⟨p.position + n, p.rest.drop n⟩

/-- A character that may stand between the parts of a value. -/
def isSpace (c : Char) : Bool := c == ' ' || c == '\t' || c == '\n' || c == '\r'

/-- The place past the spaces here. -/
def skipSpaces (p : Place) : Place := p.skip (p.rest.takeWhile isSpace).length

/-- Refuses the text for what is here. -/
def fail {α : Type} (p : Place) (flaw : Flaw) : Except Refusal α :=
  .error (.malformed flaw p.position)

end Place

/-! ## Texts -/

/-- The value of a hexadecimal digit. -/
def hexValue? (c : Char) : Option Nat :=
  if c.isDigit then some (c.toNat - '0'.toNat)
  else if 'a' ≤ c ∧ c ≤ 'f' then some (c.toNat - 'a'.toNat + 10)
  else if 'A' ≤ c ∧ c ≤ 'F' then some (c.toNat - 'A'.toNat + 10)
  else none

/-- The unit of UTF-16 that the first four characters spell. -/
def unit? (s : Text) : Option Nat :=
  if s.length < 4 then none
  else (s.take 4).foldlM (fun n c => (hexValue? c).map (16 * n + ·)) 0

/-- The character that a letter stands for after a backslash. -/
def escaped? : Char → Option Char
  | '"' => some '"'
  | '\\' => some '\\'
  | '/' => some '/'
  | 'b' => some '\x08'
  | 'f' => some '\x0C'
  | 'n' => some '\n'
  | 'r' => some '\r'
  | 't' => some '\t'
  | _ => none

/-- What the units from the place on spell, which is past the `u` of the first, and
    how many characters spell it. A further character must follow. -/
def spelled (p : Place) : Except Refusal (Symbol × Nat) :=
  let fault := Refusal.malformed .badUnitEscape (p.position - 1)
  match unit? p.rest with
  | none => .error fault
  | some high =>
    -- The closing quote must follow the digits, or further units.
    if p.rest.length < 5 then .error fault
    else if Symbol.isHigh high && 11 ≤ p.rest.length && ['\\', 'u'].isPrefixOf (p.rest.drop 4) then
      match unit? (p.rest.drop 6) with
      | none => .error (.malformed .badUnitEscape (p.position + 5))
      | some low => .ok (if Symbol.isLow low then (.ofPair high low, 10) else (.ofUnit high, 4))
    else .ok (.ofUnit high, 4)

/-- Reads a text up to its closing quote, given the place of its opening quote.
    `bound` limits the number of characters read. -/
def readText (opening : Place) : Nat → Place → Except Refusal (LooseText × Place)
  | 0, _ => opening.fail .unterminatedText
  | bound + 1, p =>
    match p.rest with
    | [] => opening.fail .unterminatedText
    | '"' :: _ => .ok ([], p.skip 1)
    | '\\' :: [] => opening.fail .unterminatedText
    | '\\' :: 'u' :: _ => do
      let (symbol, n) ← spelled (p.skip 2)
      let (more, after) ← readText opening bound (p.skip (2 + n))
      return (symbol :: more, after)
    | '\\' :: letter :: _ =>
      match escaped? letter with
      | none => p.fail .unknownEscape
      | some c => do
        let (more, after) ← readText opening bound (p.skip 2)
        return (.char c :: more, after)
    | c :: _ =>
      if c.toNat < 0x20 then p.fail .controlCharacter
      else do
        let (more, after) ← readText opening bound (p.skip 1)
        return (.char c :: more, after)

/-! ## Numbers -/

/-- The fraction at the start of a text: a point and digits. -/
def fraction (s : Text) : Text :=
  match s with
  | '.' :: rest =>
    match rest.takeWhile Char.isDigit with
    | [] => []
    | digits => '.' :: digits
  | _ => []

/-- The exponent at the start of a text: a letter, perhaps a sign, and digits. -/
def exponent (s : Text) : Text :=
  match s with
  | c :: rest =>
    if c = 'e' ∨ c = 'E' then
      let sign := (rest.take 1).filter fun c => c == '+' || c == '-'
      match (rest.drop sign.length).takeWhile Char.isDigit with
      | [] => []
      | digits => c :: sign ++ digits
    else []
  | [] => []

/-- The whole part of a number at the start of a text, which starts with zero
    only if it is zero. -/
def whole (s : Text) : Text :=
  match s with
  | '0' :: _ => ['0']
  | _ => s.takeWhile Char.isDigit

/-- Reads a number. -/
def readNumber (p : Place) : Except Refusal (Json × Place) :=
  let sign := (p.rest.take 1).filter (· == '-')
  let digits := whole (p.rest.drop sign.length)
  let afterWhole := p.rest.drop (sign.length + digits.length)
  let fractional := fraction afterWhole
  let power := exponent (afterWhole.drop fractional.length)
  let spelling := sign ++ digits ++ fractional ++ power
  if digits.isEmpty then p.fail .noValue
  else if fractional.isEmpty && power.isEmpty && digitLimit < digits.length then
    .error (.tooManyDigits digits.length)
  else .ok (number spelling, p.skip spelling.length)

/-! ## Values -/

/-- The words that are values. -/
def words : List (Text × Json) := [
  ("null".toList, null), ("true".toList, bool true), ("false".toList, bool false),
  ("NaN".toList, number "NaN".toList), ("Infinity".toList, number "Infinity".toList),
  ("-Infinity".toList, number "-Infinity".toList)]

mutual

/-- Reads a value. `bound` limits the number of values and parts read, and `depth`
    how deep the values in it may be nested. -/
def readValue (bound depth : Nat) (p : Place) : Except Refusal (Json × Place) :=
  match bound with
  | 0 => p.fail .noValue
  | bound + 1 =>
    match p.rest with
    | '"' :: _ => do
      let (t, after) ← readText p p.rest.length (p.skip 1)
      return (text t, after)
    | '[' :: _ =>
      let inside := (p.skip 1).skipSpaces
      match depth, inside.rest with
      | 0, _ => .error .tooDeep
      | _, ']' :: _ => .ok (array [], inside.skip 1)
      | depth + 1, _ => do
        let (items, after) ← readItems bound depth inside
        return (array items, after)
    | '\x7b' :: _ =>
      let inside := (p.skip 1).skipSpaces
      match depth, inside.rest with
      | 0, _ => .error .tooDeep
      | _, '\x7d' :: _ => .ok (object [], inside.skip 1)
      | depth + 1, _ => do
        let (fields, after) ← readFields bound depth inside
        return (object fields, after)
    | rest =>
      match words.find? (·.1.isPrefixOf rest) with
      | some (word, value) => .ok (value, p.skip word.length)
      | none => readNumber p

/-- Reads the items of an array up to its end. -/
def readItems (bound depth : Nat) (p : Place) : Except Refusal (List Json × Place) :=
  match bound with
  | 0 => p.fail .noValue
  | bound + 1 => do
    let (item, after) ← readValue bound depth p
    let after := after.skipSpaces
    match after.rest with
    | ']' :: _ => return ([item], after.skip 1)
    | ',' :: _ =>
      let (items, final) ← readItems bound depth (after.skip 1).skipSpaces
      return (item :: items, final)
    | _ => after.fail .noComma

/-- Reads the fields of an object up to its end. -/
def readFields (bound depth : Nat) (p : Place) : Except Refusal (List (LooseText × Json) × Place) :=
  match bound with
  | 0 => p.fail .noName
  | bound + 1 =>
    match p.rest with
    | '"' :: _ => do
      let (name, after) ← readText p p.rest.length (p.skip 1)
      let after := after.skipSpaces
      match after.rest with
      | ':' :: _ =>
        let (value, after) ← readValue bound depth (after.skip 1).skipSpaces
        let after := after.skipSpaces
        match after.rest with
        | '\x7d' :: _ => return ([(name, value)], after.skip 1)
        | ',' :: _ =>
          let (fields, final) ← readFields bound depth (after.skip 1).skipSpaces
          return ((name, value) :: fields, final)
        | _ => after.fail .noComma
      | _ => after.fail .noColon
    | _ => p.fail .noName

end

/-- The value that a text is, if no more arrays and objects are nested in it than the
    limit, where there is one. Every part of a value has a character of its own, so the
    text's length bounds their number, and how deep they are nested. -/
def read (s : Text) (limit : Option Nat := none) : Except Refusal Json := do
  let start : Place := ⟨0, s⟩
  if s.head? = some '\uFEFF' then start.fail .byteOrderMark
  let bound := 2 * s.length + 2
  let (value, after) ← readValue bound (limit.getD bound) start.skipSpaces
  let final := after.skipSpaces
  if final.rest.isEmpty then return value else final.fail .extraData

/-- The value of a field of an object; of fields of one name the last counts. -/
def field? (fields : List (LooseText × Json)) (name : String) : Option Json :=
  fields.reverse.lookup (.ofText name.toList)

end Marginalia.Json
