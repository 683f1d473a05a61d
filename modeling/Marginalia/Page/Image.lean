import Marginalia.Page.Url

/-!
# Images in write-ups

A write-up may hold markup with images. The source of each is made a link to the
image as the site serves it. An attribute is its name, an equals sign and a value
in quotes, which may be of either kind and need not match; a value is not empty
and holds no quote and no closing bracket.

* `length_lt_of_source?`: what follows an attribute is shorter than the text that
  starts with it.
-/

namespace Marginalia.Image

/-- The width that images of write-ups are scaled to. -/
def maxWidth : Int := 700

/-- What comes before the value of an attribute. -/
def key : Text := "src=".toList

/-- A quote of either kind. -/
def isQuote (c : Char) : Bool := c == '"' || c == '\''

/-- A character that a value may hold. -/
def isValue (c : Char) : Bool := !isQuote c && c != '>'

/-- The value of the attribute that a text starts with, and what follows it. -/
def source? (s : Text) : Option (Text × Text) :=
  match key.isPrefixOf? s with
  | some (quote :: rest) =>
    match rest.takeWhile isValue, rest.dropWhile isValue with
    | _ :: _, closing :: after =>
      if isQuote quote && isQuote closing then some (rest.takeWhile isValue, after) else none
    | _, _ => none
  | _ => none

theorem length_lt_of_source? {s value after : Text} (h : source? s = some (value, after)) :
    after.length < s.length := by
  unfold source? at h
  split at h
  · rename_i quote rest hs
    have hs := Text.eq_append_of_isPrefixOf? hs
    split at h
    · rename_i closing tail _ hd
      split at h
      · simp only [Option.some.injEq, Prod.mk.injEq] at h
        have : rest.length = (rest.takeWhile isValue).length + (closing :: after).length := by
          rw [← h.2, ← hd, ← List.length_append, List.takeWhile_append_dropWhile]
        simp only [List.length_cons] at this
        rw [hs, List.length_append, List.length_cons]
        omega
      · simp at h
    · simp at h
  · simp at h

/-- The text with every attribute's value made a link and put in double
    quotes. -/
def relink (link : Text → Text) (s : Text) : Text :=
  match _h : source? s with
  | some (value, after) => key ++ '"' :: link value ++ '"' :: relink link after
  | none =>
    match s with
    | [] => []
    | c :: rest => c :: relink link rest
termination_by s.length
decreasing_by
  · exact length_lt_of_source? ‹_›
  · simp

/-- The write-up of a project with its images as the site serves them. -/
def serve (settings : Settings) (id markdown : Text) : Text :=
  relink (Url.ofImage settings ⟨some maxWidth, none⟩ id) markdown

end Marginalia.Image
