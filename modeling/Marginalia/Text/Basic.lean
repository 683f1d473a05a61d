import Marginalia.Text.Blank

/-!
# Text

A text is the list of its characters; lengths and columns count code points.
Here are the cuts the rest of the library needs: stripping at either end,
searching for a part, splitting at a character and joining again.
-/

namespace Marginalia

/-- A text: a list of characters. -/
abbrev Text := List Char

namespace Text

/-- The text of a decimal numeral. -/
def ofNat (n : Nat) : Text := Nat.toDigits 10 n

/-- A list without the last of its items that satisfy `p`. -/
def dropEndWhile {α : Type} (p : α → Bool) (s : List α) : List α := (s.reverse.dropWhile p).reverse

/-- A list without the first and the last of its items that satisfy `p`. -/
def stripOf {α : Type} (p : α → Bool) (s : List α) : List α := dropEndWhile p (s.dropWhile p)

/-- The number of bytes of the text in UTF-8. -/
def byteSize (s : Text) : Nat := s.foldr (fun c size => c.utf8Size + size) 0

/-- The text without blanks at its start. -/
def stripStart (s : Text) : Text := s.dropWhile isBlank

/-- The text without blanks at its end. -/
def stripEnd (s : Text) : Text := dropEndWhile isBlank s

/-- The text without blanks at its ends. -/
def strip (s : Text) : Text := stripOf isBlank s

/-- A text of blanks only, or without any character. -/
def isBlankText (s : Text) : Bool := s.all isBlank

/-- The position of the first occurrence of `part`. -/
def find? (part : Text) : Text → Option Nat
  | [] => if part.isEmpty then some 0 else none
  | c :: rest =>
    if part.isPrefixOf (c :: rest) then some 0 else (find? part rest).map (· + 1)

/-- The pieces between the occurrences of `c`: one more than there are
    occurrences. -/
def splitAt (c : Char) : Text → List Text
  | [] => [[]]
  | x :: rest =>
    if x = c then [] :: splitAt c rest
    else match splitAt c rest with
      | [] => [[x]]
      | piece :: pieces => (x :: piece) :: pieces

/-- The pieces with `c` between them. -/
def joinWith (c : Char) (pieces : List Text) : Text := [c].intercalate pieces

/-- Whether the text starts with one of `starts`. -/
def startsWithAny (starts : List Text) (s : Text) : Bool := starts.any (·.isPrefixOf s)

/-- The text without `start`, if it starts with it. -/
def dropStart (start s : Text) : Text := (start.isPrefixOf? s).getD s

theorem eq_append_of_isPrefixOf? {start s rest : Text} (h : start.isPrefixOf? s = some rest) :
    s = start ++ rest := by
  induction start generalizing s with
  | nil => exact Option.some.inj h
  | cons c start ih =>
    cases s with
    | nil => cases h
    | cons d s =>
      change (if c == d then start.isPrefixOf? s else none) = some rest at h
      split at h
      · rename_i hcd
        rw [eq_of_beq hcd, List.cons_append, ← ih h]
      · cases h

/-- Splitting at a character gives at least one piece. -/
theorem splitAt_ne_nil (c : Char) (s : Text) : splitAt c s ≠ [] := by
  cases s with
  | nil => simp [splitAt]
  | cons x rest =>
    rw [splitAt]
    split
    · simp
    · split <;> simp

/-- No piece holds the character that is split at. -/
theorem not_mem_of_mem_splitAt {c : Char} {s piece : Text} (h : piece ∈ splitAt c s) :
    c ∉ piece := by
  induction s generalizing piece with
  | nil =>
    obtain rfl := List.mem_singleton.1 h
    exact List.not_mem_nil
  | cons x rest ih =>
    rw [splitAt] at h
    split at h
    · rcases List.mem_cons.1 h with rfl | h
      · exact List.not_mem_nil
      · exact ih h
    · rename_i hx
      split at h
      · rename_i hnil
        exact absurd hnil (splitAt_ne_nil c rest)
      · rename_i first pieces hpieces
        rw [hpieces] at ih
        rcases List.mem_cons.1 h with rfl | h
        · exact fun hc => (List.mem_cons.1 hc).elim (fun hcx => hx hcx.symm) (ih List.mem_cons_self)
        · exact ih (List.mem_cons_of_mem _ h)

end Text

end Marginalia
