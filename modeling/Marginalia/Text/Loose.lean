import Marginalia.Text.Basic

/-!
# Loose texts

JSON can spell out one half of a surrogate pair, which is no character. A *loose
text* is a list of characters and such halves. It can be kept, stripped and
compared like any text, but only one without a half is a text (`text?`), and only
a text can be written in UTF-8.

* `text?_ofText`: a text is a loose text without a half;
* `eq_ofText_of_text?`: a loose text without a half is that of its characters.
-/

namespace Marginalia

/-- What a loose text is made of. -/
inductive Symbol
  | char (c : Char)
  /-- Half of a surrogate pair, as a unit of UTF-16. -/
  | half (unit : Nat)
  deriving DecidableEq, Repr

/-- A text in which halves of surrogate pairs may stand. -/
abbrev LooseText := List Symbol

namespace Symbol

/-- The character, if it is one. -/
def char? : Symbol → Option Char
  | char c => some c
  | half _ => none

/-- White space, which a half is not. -/
def isBlank (s : Symbol) : Bool := s.char?.any Text.isBlank

/-- The first half of a surrogate pair. -/
def isHigh (unit : Nat) : Bool := 0xD800 ≤ unit && unit ≤ 0xDBFF

/-- The second half of a surrogate pair. -/
def isLow (unit : Nat) : Bool := 0xDC00 ≤ unit && unit ≤ 0xDFFF

/-- What a single unit of UTF-16 stands for. -/
def ofUnit (unit : Nat) : Symbol :=
  if isHigh unit || isLow unit then half unit else char (Char.ofNat unit)

/-- What both halves of a surrogate pair stand for. -/
def ofPair (high low : Nat) : Symbol :=
  char (Char.ofNat (0x10000 + (high - 0xD800) * 0x400 + (low - 0xDC00)))

end Symbol

namespace LooseText

/-- A text as a loose text. -/
def ofText (s : Text) : LooseText := s.map .char

/-- The text, if there is no half in it. -/
def text? : LooseText → Option Text
  | [] => some []
  | .char c :: rest => (text? rest).map (c :: ·)
  | .half _ :: _ => none

/-- The characters before the first half. -/
def beginning : LooseText → Text
  | .char c :: rest => c :: beginning rest
  | _ => []

/-- The loose text without blanks at its ends. -/
def strip (s : LooseText) : LooseText := Text.stripOf Symbol.isBlank s

/-- A loose text of blanks only. -/
def isBlankText (s : LooseText) : Bool := s.all Symbol.isBlank

@[simp] theorem text?_ofText (s : Text) : (ofText s).text? = some s := by
  induction s with
  | nil => rfl
  | cons c rest ih =>
    change (text? (ofText rest)).map (c :: ·) = some (c :: rest)
    rw [ih]
    rfl

theorem eq_ofText_of_text? {s : LooseText} {t : Text} (h : s.text? = some t) : s = ofText t := by
  fun_induction text? s generalizing t with
  | case1 => obtain rfl := Option.some.inj h; rfl
  | case2 c rest ih =>
    obtain ⟨u, hu, rfl⟩ := Option.map_eq_some_iff.1 h
    rw [ih hu]
    rfl
  | case3 => cases h

@[simp] theorem beginning_ofText (s : Text) : (ofText s).beginning = s := by
  induction s with
  | nil => rfl
  | cons c rest ih =>
    change c :: beginning (ofText rest) = c :: rest
    rw [ih]

end LooseText

end Marginalia
