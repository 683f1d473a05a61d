import Marginalia.Text.Basic

/-!
# Physical lines

A source text as a list of lines, each with its number, its content and its
line end. A carriage return belongs to the line end if a newline follows it;
elsewhere it is a character like any other. An empty text has no line, and a
last line without a line end is still a line.

* `join_split`: putting the lines together again gives the text;
* `newline_not_mem_pieces`: no content holds a newline.
-/

namespace Marginalia

/-- A physical line. -/
structure Line where
  /-- The number of the line, the first one being 0. -/
  number : Nat
  /-- The characters before the line end. -/
  content : Text
  /-- The line end. In a text it is a newline, perhaps after a carriage return, or
      is missing; displayed code keeps whatever it is. -/
  ending : Text
  deriving DecidableEq, Repr

namespace Line

/-- The line with its end. -/
def text (line : Line) : Text := line.content ++ line.ending

/-- The blanks at the start of the line. -/
def indentation (line : Line) : Text := line.content.takeWhile Text.isBlank

/-- A line of blanks only. -/
def isBlank (line : Line) : Bool := line.content.isBlankText

/-- The contents of the lines of a text with their ends. -/
def pieces : Text → List (Text × Text)
  | [] => []
  | '\n' :: rest => ([], ['\n']) :: pieces rest
  | '\r' :: '\n' :: rest => ([], ['\r', '\n']) :: pieces rest
  | c :: rest =>
    match pieces rest with
    | [] => [([c], [])]
    | (content, ending) :: more => (c :: content, ending) :: more

/-- The lines of a text. -/
def split (s : Text) : List Line :=
  (pieces s).mapIdx fun number (content, ending) => ⟨number, content, ending⟩

/-- The text of the lines. -/
def join (lines : List Line) : Text := lines.flatMap text

theorem flatMap_pieces (s : Text) : ((pieces s).flatMap fun p => p.1 ++ p.2) = s := by
  fun_induction pieces s with
  | case1 => rfl
  | case2 rest ih => simp [ih]
  | case3 rest ih => simp [ih]
  | case4 c rest h₁ h₂ h ih => rw [h] at ih; simp_all
  | case5 c rest h₁ h₂ content ending more h ih => rw [h] at ih; simp_all

/-- Putting the lines of a text together gives the text. -/
theorem join_split (s : Text) : join (split s) = s := by
  have : join (split s) = (pieces s).flatMap fun p => p.1 ++ p.2 := by
    simp only [join, split, List.flatMap_def, List.mapIdx_eq_zipIdx_map, List.map_map]
    congr 1
    exact List.ext_getElem (by simp) fun i h₁ h₂ => by simp [text]
  rw [this, flatMap_pieces]

theorem newline_not_mem_pieces {s : Text} {p : Text × Text} (h : p ∈ pieces s) :
    '\n' ∉ p.1 := by
  fun_induction pieces s generalizing p with
  | case1 => simp at h
  | case2 rest ih | case3 rest ih =>
    rcases List.mem_cons.1 h with rfl | h
    · simp
    · exact ih h
  | case4 c rest h₁ h₂ hp ih =>
    obtain rfl := List.mem_singleton.1 h
    simpa using fun hc => h₁ hc.symm
  | case5 c rest h₁ h₂ content ending more hp ih =>
    rcases List.mem_cons.1 h with rfl | h
    · have := @ih (content, ending) (by simp [hp])
      simpa [this] using fun hc => h₁ hc.symm
    · exact ih (by simp [hp, h])

end Line

end Marginalia
