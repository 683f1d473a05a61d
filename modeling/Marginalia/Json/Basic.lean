import Marginalia.Text.Loose
import Marginalia.Text.Quoted

/-!
# JSON

JSON values and how they are written: one item or field a line, indented by two
spaces a level. A number keeps its spelling, and an object its fields in their
order. Texts are loose, as a value that was read may hold half a surrogate pair.
A value with such a half can be written in plain ASCII, which spells it out, but
not with all characters as they are.
-/

namespace Marginalia

/-- A JSON value. -/
inductive Json
  | null
  | bool (value : Bool)
  /-- A number, as it is spelled. -/
  | number (spelling : Text)
  | text (value : LooseText)
  | array (items : List Json)
  | object (fields : List (LooseText × Json))

namespace Json

/-- A whole number. -/
def ofInt (n : Int) : Json := .number (toString n).toList

/-- A whole number that is not negative. -/
def ofNat (n : Nat) : Json := .number (Text.ofNat n)

/-- A whole number, or null where there is none. -/
def ofInt? : Option Int → Json
  | none => .null
  | some n => .ofInt n

/-- A text. -/
def ofText (t : Text) : Json := .text (.ofText t)

/-- A text, or null where there is none. -/
def ofText? : Option Text → Json
  | none => .null
  | some t => .ofText t

/-- A loose text, or null where there is none. -/
def ofLoose? : Option LooseText → Json
  | none => .null
  | some t => .text t

/-- An object with the given field names. -/
def ofFields (fields : List (String × Json)) : Json :=
  .object (fields.map fun (name, value) => (.ofText name.toList, value))

/-! ## Writing -/

/-- A unit of UTF-16, spelled out. -/
def escapeUnit (n : Nat) : Text := '\\' :: 'u' :: Text.hex 4 n

/-- A character spelled out, by two units if it is past the first plane. -/
def escapeWide (c : Char) : Text :=
  if c.toNat < 0x10000 then escapeUnit c.toNat
  else
    let n := c.toNat - 0x10000
    escapeUnit (0xD800 + n / 0x400) ++ escapeUnit (0xDC00 + n % 0x400)

/-- A character of a text between quotes. -/
def writeChar (c : Char) : Text :=
  if c = '"' ∨ c = '\\' then ['\\', c]
  else if c = '\n' then ['\\', 'n']
  else if c = '\r' then ['\\', 'r']
  else if c = '\t' then ['\\', 't']
  else if c = '\x08' then ['\\', 'b']
  else if c = '\x0C' then ['\\', 'f']
  else if c.toNat < 0x20 then escapeWide c
  else [c]

/-- What stands for a symbol between quotes. -/
def writeSymbol : Symbol → LooseText
  | .char c => .ofText (writeChar c)
  | .half unit => [.half unit]

/-- Signs of the notation. -/
def signs (s : String) : LooseText := .ofText s.toList

/-- A text in quotes. -/
def writeText (t : LooseText) : LooseText := signs "\"" ++ t.flatMap writeSymbol ++ signs "\""

/-- A new line at a level of indentation. -/
def newline (level : Nat) : LooseText := .ofText ('\n' :: List.replicate (2 * level) ' ')

mutual

/-- The writing of a value at a level of indentation. -/
def writeAt (level : Nat) : Json → LooseText
  | null => signs "null"
  | bool true => signs "true"
  | bool false => signs "false"
  | number spelling => .ofText spelling
  | text t => writeText t
  | array [] => signs "[]"
  | array (item :: items) =>
    signs "[" ++ newline (level + 1) ++ writeAt (level + 1) item ++
      writeItems (level + 1) items ++ newline level ++ signs "]"
  | object [] => signs "\x7b\x7d"
  | object ((name, value) :: fields) =>
    signs "\x7b" ++ newline (level + 1) ++ writeText name ++ signs ": " ++
      writeAt (level + 1) value ++ writeFields (level + 1) fields ++ newline level ++
      signs "\x7d"

/-- The writing of the items after the first. -/
def writeItems (level : Nat) : List Json → LooseText
  | [] => []
  | item :: items =>
    signs "," ++ newline level ++ writeAt level item ++ writeItems level items

/-- The writing of the fields after the first. -/
def writeFields (level : Nat) : List (LooseText × Json) → LooseText
  | [] => []
  | (name, value) :: fields =>
    signs "," ++ newline level ++ writeText name ++ signs ": " ++ writeAt level value ++
      writeFields level fields

end

/-- The writing of a value with all characters as they are, which has no place for
    half a surrogate pair. -/
def write? (json : Json) : Option Text := (writeAt 0 json).text?

/-- A symbol in printable ASCII. Line breaks belong to the layout, as those in texts
    are spelled out in any writing. -/
def plain : Symbol → Text
  | .char c => if c = '\n' ∨ (0x20 ≤ c.toNat ∧ c.toNat ≤ 0x7E) then [c] else escapeWide c
  | .half unit => escapeUnit unit

/-- The writing of a value in printable ASCII. -/
def writePlain (json : Json) : Text := (writeAt 0 json).flatMap plain

end Json

end Marginalia
