import Marginalia.Proofs.Source.Line

/-!
# Line ends

The content of a line without its line end, and a text in which other line ends take the
place of those it has.

* `SameContents.map_bare`: texts with the same contents have the same lines but for the
  line ends;
* `split_crlf`: with a carriage return before every newline, a text without carriage
  returns has the lines it had, with these line ends.
-/

namespace Marginalia.Line

/-! ## Contents -/

/-- The line without its line end. -/
def bare (line : Line) : Line := { line with ending := [] }

/-- A line is given another line end. -/
structure ChangesEnd (f : Line → Line) : Prop where
  number : ∀ line, (f line).number = line.number
  content : ∀ line, (f line).content = line.content

theorem changesEnd_bare : ChangesEnd bare := ⟨fun _ => rfl, fun _ => rfl⟩

/-- The lines of the texts have the same contents, one by one. -/
def SameContents (s s' : Text) : Prop :=
  (split s).map (·.content) = (split s').map (·.content)

instance (s s' : Text) : Decidable (SameContents s s') := inferInstanceAs (Decidable (_ = _))

theorem map_content_split (s : Text) : (split s).map (·.content) = (pieces s).map (·.1) := by
  rw [← map_piece_split, List.map_map]
  rfl

theorem map_bare_split (s : Text) : (split s).map bare =
    numbered ((split s).map fun line => (line.content, [])) := by
  refine List.ext_getElem (by simp [numbered]) fun i h₁ h₂ => ?_
  simp [numbered, split, bare]

/-- Lines of texts are numbered in the same way. -/
theorem SameContents.map_bare {s s' : Text} (h : SameContents s s') :
    (split s).map bare = (split s').map bare := by
  have hpieces := congrArg (List.map fun content : Text => (content, ([] : Text))) h
  rw [List.map_map, List.map_map] at hpieces
  rw [map_bare_split, map_bare_split]
  exact congrArg numbered hpieces

/-! ## Carriage returns -/

/-- The text with a carriage return before every newline. -/
def crlf (s : Text) : Text := s.flatMap fun c => if c = '\n' then ['\r', '\n'] else [c]

/-- The line with a carriage return before the newline that ends it. -/
def withCrlf (line : Line) : Line := { line with ending := crlf line.ending }

theorem changesEnd_withCrlf : ChangesEnd withCrlf := ⟨fun _ => rfl, fun _ => rfl⟩

theorem crlf_append (s t : Text) : crlf (s ++ t) = crlf s ++ crlf t := List.flatMap_append

theorem crlf_eq_self {s : Text} (h : '\n' ∉ s) : crlf s = s := by
  induction s with
  | nil => rfl
  | cons c s ih =>
    rw [List.mem_cons, not_or] at h
    rw [crlf, List.flatMap_cons, if_neg (Ne.symm h.1), ← crlf, ih h.2, List.singleton_append]

theorem crlf_joinPieces {ps : List (Text × Text)} (h : ∀ p ∈ ps, '\n' ∉ p.1) :
    crlf (joinPieces ps) = joinPieces (ps.map fun p => (p.1, crlf p.2)) := by
  induction ps with
  | nil => rfl
  | cons p ps ih =>
    rw [List.forall_mem_cons] at h
    rw [joinPieces, List.flatMap_cons, crlf_append, crlf_append, crlf_eq_self h.1, ← joinPieces,
      ih h.2, List.map_cons, joinPieces, joinPieces, List.flatMap_cons]

theorem Ended.crlf {p : Text × Text} (h : Ended p) (hcr : '\r' ∉ p.2) : Ended (p.1, crlf p.2) := by
  obtain ⟨content, ending⟩ := p
  obtain ⟨hn, rfl | ⟨rfl, -⟩⟩ := h
  · exact absurd List.mem_cons_self hcr
  · exact ⟨hn, .inl rfl⟩

theorem Unended.crlf {p : Text × Text} (h : Unended p) : Unended (p.1, crlf p.2) := by
  obtain ⟨content, ending⟩ := p
  obtain ⟨hn, hne, rfl⟩ := h
  exact ⟨hn, hne, rfl⟩

/-- A text without carriage returns has the same lines with them. -/
theorem pieces_crlf {s : Text} (hcr : '\r' ∉ s) :
    pieces (crlf s) = (pieces s).map fun p => (p.1, crlf p.2) := by
  have hending : ∀ p ∈ pieces s, '\r' ∉ p.2 := by
    intro p hp hmem
    rw [← flatMap_pieces s] at hcr
    exact hcr (List.mem_flatMap.2 ⟨p, hp, List.mem_append_right _ hmem⟩)
  have hlines : AreLines ((pieces s).map fun p => (p.1, crlf p.2)) :=
    (areLines_pieces s).map (fun p hp he => he.crlf (hending p hp)) (fun _ _ => Unended.crlf)
  have hcrlf : crlf s = joinPieces ((pieces s).map fun p => (p.1, crlf p.2)) := by
    rw [← crlf_joinPieces fun p hp => newline_not_mem_pieces hp, joinPieces, flatMap_pieces]
  rw [hcrlf, pieces_join hlines]

theorem split_crlf {s : Text} (hcr : '\r' ∉ s) : split (crlf s) = (split s).map withCrlf := by
  rw [split, pieces_crlf hcr, split]
  exact List.ext_getElem (by simp) fun i h₁ h₂ => by simp [withCrlf]

end Marginalia.Line
