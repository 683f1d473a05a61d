import Marginalia.Text.Basic

/-!
# Dialects

How a source language writes comments and how the markers in them are spelled.
Any of these may be empty; what that leads to is settled where they are used.
-/

namespace Marginalia

/-- The comment delimiters of a language and the words that start a marker. -/
structure Dialect where
  /-- Starts a comment that ends with its line. -/
  lineComment : Text := "//".toList
  /-- Starts a comment that may go on over lines. -/
  blockOpen : Text := "/*".toList
  /-- Ends a comment that `blockOpen` started. -/
  blockClose : Text := "*/".toList
  /-- Starts the marker that opens a note. -/
  opening : Text := "@annotate".toList
  /-- Starts the marker that closes a note. -/
  closing : Text := "@end".toList
  /-- Starts a note of one line. -/
  note : Text := "NOTE:".toList

/-- The dialect of sketches and of the languages of their libraries. -/
def Dialect.standard : Dialect := {}

end Marginalia
