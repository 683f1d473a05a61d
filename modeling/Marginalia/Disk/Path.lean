import Marginalia.Text.Basic

/-!
# Paths

A path as it is written, split at its slashes. Empty parts and parts of a single
point say nothing and are left out; a part of two points, the way up, stays.
Slashes at the start make a path absolute: exactly two of them are kept as two,
any other number counts as one.
-/

namespace Marginalia

/-- A part that says nothing about where a path leads. -/
def Path.isIdle (part : Text) : Bool := part == [] || part == ['.']

/-- A path. -/
@[ext]
structure Path where
  /-- The number of slashes it starts with: none, one or two. -/
  slashes : Nat
  /-- The names it leads through. -/
  parts : List Text
  /-- Each of them leads somewhere, and is in one piece. -/
  proper : ∀ part ∈ parts, Path.isIdle part = false ∧ '/' ∉ part
  deriving DecidableEq, Repr

namespace Path

/-- The path written as `s`. -/
def ofText (s : Text) : Path where
  slashes := match (s.takeWhile (· == '/')).length with
    | 0 => 0
    | 2 => 2
    | _ => 1
  parts := (Text.splitAt '/' s).filter (!isIdle ·)
  proper part hpart := by
    obtain ⟨hpiece, hidle⟩ := List.mem_filter.1 hpart
    exact ⟨by simpa using hidle, Text.not_mem_of_mem_splitAt hpiece⟩

/-- The writing of a path: a single point for the one that leads nowhere. -/
def text (p : Path) : Text :=
  match p.slashes, p.parts with
  | 0, [] => ['.']
  | n, parts => List.replicate n '/' ++ Text.joinWith '/' parts

/-- Whether the path holds a null character, which no name may hold. -/
def holdsNull (p : Path) : Bool := p.parts.any (·.contains '\x00')

/-- Whether the path starts at the root. -/
def isAbsolute (p : Path) : Bool := p.slashes != 0

/-- The path that leads on from `p` by `q`, which is `q` itself if absolute. -/
def append (p q : Path) : Path :=
  if q.isAbsolute then q
  else
    { p with
      parts := p.parts ++ q.parts
      proper := fun part hpart => (List.mem_append.1 hpart).elim (p.proper part) (q.proper part) }

/-- The path with one more name. -/
def child (p : Path) (name : Text) : Path := p.append (ofText name)

/-- The last name of a path, empty if it has none. -/
def name (p : Path) : Text := p.parts.getLast?.getD []

/-- The path without its last name. -/
def parent (p : Path) : Path :=
  { p with
    parts := p.parts.dropLast
    proper := fun part hpart => p.proper part (List.dropLast_subset _ hpart) }

/-- The end of a file name from its last point on. A point at either end of the
    name starts no suffix. -/
def suffix (name : Text) : Text :=
  let tail := (name.reverse.takeWhile (· != '.')).reverse
  if tail.isEmpty || name.length ≤ tail.length + 1 then [] else '.' :: tail

end Path

end Marginalia
