import Marginalia.Proofs.Marker.Role
import Marginalia.Proofs.Source.Comment
import Marginalia.Proofs.Source.Line

/-!
# Markers with an id

How a marker with an id is written on a line of its own (`openingMarker`,
`closingMarker`), and that such a line is read as this marker.

* `isRole_openingMarker`, `isRole_closingMarker`: the roles of these lines;
* `findComment_openingMarker`, `findComment_closingMarker`: where their comments
  start.
-/

namespace Marginalia

/-- A line that opens a note with an id. -/
def openingMarker (id words : Text) : Text :=
  "// @annotate(".toList ++ id ++ ')' :: ' ' :: words

/-- A line that closes the note with that id. -/
def closingMarker (id : Text) : Text := "// @end(".toList ++ id ++ [')']

namespace Role

/-- Letters are between these code points. -/
theorem toNat_of_isAlpha {c : Char} (h : c.isAlpha) :
    (65 ≤ c.toNat ∧ c.toNat ≤ 90) ∨ (97 ≤ c.toNat ∧ c.toNat ≤ 122) := by
  have hcases : c.isUpper = true ∨ c.isLower = true := (Bool.or_eq_true _ _).mp h
  rcases hcases with hupper | hlower
  · have hrange : 'A'.val ≤ c.val ∧ c.val ≤ 'Z'.val := of_decide_eq_true hupper
    exact .inl hrange
  · obtain ⟨hfirst, hlast⟩ := (Bool.and_eq_true _ _).mp hlower
    have hfirst' : 'a'.val ≤ c.val := of_decide_eq_true hfirst
    have hlast' : c.val ≤ 'z'.val := of_decide_eq_true hlast
    exact .inr ⟨hfirst', hlast'⟩

theorem toNat_of_isDigit {c : Char} (h : c.isDigit) : 48 ≤ c.toNat ∧ c.toNat ≤ 57 := by
  obtain ⟨hfirst, hlast⟩ := (Bool.and_eq_true _ _).mp h
  have hfirst' : '0'.val ≤ c.val := of_decide_eq_true hfirst
  have hlast' : c.val ≤ '9'.val := of_decide_eq_true hlast
  exact ⟨hfirst', hlast'⟩

theorem not_isBlank_of_continuesId {c : Char} (h : continuesId c) : ¬Text.isBlank c := by
  intro hblank
  have hrange := Text.toNat_of_isBlank hblank
  simp only [continuesId, Char.isAlphanum, Bool.or_eq_true, beq_iff_eq] at h
  rcases h with (((h | h) | rfl) | rfl) | rfl
  · have := toNat_of_isAlpha h
    omega
  · have := toNat_of_isDigit h
    omega
  · exact absurd hblank (by decide)
  · exact absurd hblank (by decide)
  · exact absurd hblank (by decide)

theorem continuesId_of_isId {id : Text} (h : isId id) : ∀ c ∈ id, continuesId c := by
  cases id with
  | nil => cases h
  | cons c id =>
    rw [isId, Bool.and_eq_true, List.all_eq_true] at h
    refine List.forall_mem_cons.2 ⟨?_, h.2⟩
    have hc := h.1
    simp only [startsId, Bool.or_eq_true, beq_iff_eq] at hc
    rcases hc with hc | rfl
    · simp only [continuesId, Char.isAlphanum, hc, Bool.true_or]
    · rfl

theorem not_mem_of_isId {id : Text} {c : Char} (h : isId id) (hc : continuesId c = false) :
    c ∉ id := fun hmem => Bool.eq_false_iff.1 hc (continuesId_of_isId h c hmem)

theorem strip_of_isId {id : Text} (h : isId id) : Text.strip id = id := by
  have hall : ∀ c ∈ id, ¬Text.isBlank c := fun c hc =>
    not_isBlank_of_continuesId (continuesId_of_isId h c hc)
  have hstart : Text.stripStart id = id := by
    cases id with
    | nil => rfl
    | cons c id => exact List.dropWhile_cons_of_neg (hall c List.mem_cons_self)
  rw [Text.strip_eq, hstart]
  exact List.rdropWhile_eq_self_iff.2 fun hne => hall _ (List.getLast_mem hne)

/-- What is in parentheses must be an id, blanks at its ends not counting. -/
theorem idAndText_closed {inside : Text} (h : ')' ∉ inside) (rest : Text) :
    idAndText ('(' :: (inside ++ ')' :: rest)) =
      if isId inside.strip then .ok (some inside.strip, rest.strip)
      else .error (if inside.strip = [] then .emptyId else .invalidId inside.strip) := by
  have hall : ∀ c ∈ inside, (c != ')') = true := fun c hc => bne_iff_ne.2 fun heq => h (heq ▸ hc)
  have hdrop : (inside ++ ')' :: rest).dropWhile (· != ')') = ')' :: rest := by
    rw [List.dropWhile_append_of_pos hall]
    rfl
  have htake : (inside ++ ')' :: rest).takeWhile (· != ')') = inside := by
    rw [List.takeWhile_append_of_pos hall]
    exact List.append_nil inside
  rw [idAndText, hdrop, htake]
  cases inside.strip with
  | nil => rfl
  | cons c id => rfl

/-- The id and the text after a marker's word, when the id is in parentheses. -/
theorem idAndText_of_isId {id : Text} (h : isId id) (text : Text) :
    idAndText ('(' :: (id ++ ')' :: text)) = .ok (some id, text.strip) := by
  rw [idAndText_closed (not_mem_of_isId h rfl), strip_of_isId h, if_pos h]

/-! ## The lines of the markers -/

variable {id words : Text}

theorem strip_openingComment (words : Text) :
    Text.strip (" @annotate(".toList ++ id ++ ')' :: ' ' :: words) =
      "@annotate(".toList ++ id ++ ')' :: Text.stripEnd (' ' :: words) := by
  have hstart : Text.stripStart (" @annotate(".toList ++ id ++ ')' :: ' ' :: words) =
      "@annotate(".toList ++ id ++ ')' :: ' ' :: words := rfl
  rw [Text.strip_eq, hstart, Text.stripEnd_append_cons (by decide)]

theorem strip_closingComment : Text.strip (" @end(".toList ++ id ++ [')']) =
    "@end(".toList ++ id ++ [')'] := by
  have hstart : Text.stripStart (" @end(".toList ++ id ++ [')']) = "@end(".toList ++ id ++ [')'] :=
    rfl
  rw [Text.strip_eq, hstart, Text.stripEnd_append_cons (by decide)]
  rfl

/-- A line that opens a note with an id is read as that, if the words are without
    blanks at their ends. -/
theorem isRole_openingMarker (hid : isId id) (hwords : Text.strip words = words) (noteOpen : Bool) :
    IsRole .standard noteOpen (openingMarker id words) (some 0) (.opening (some id) words) := by
  refine .marker ?_
  have hpayload := idAndText_of_isId hid (Text.stripEnd (' ' :: words))
  rw [Text.strip_stripEnd_cons rfl hwords] at hpayload
  have hcomment : (openingMarker id words).drop (0 + Dialect.standard.lineComment.length) =
      " @annotate(".toList ++ id ++ ')' :: ' ' :: words := rfl
  have hsentinel : startsMarker Dialect.standard.opening
      ("@annotate(".toList ++ id ++ ')' :: Text.stripEnd (' ' :: words)) = true := rfl
  have hafter : ("@annotate(".toList ++ id ++ ')' :: Text.stripEnd (' ' :: words)).drop
      Dialect.standard.opening.length = '(' :: (id ++ ')' :: Text.stripEnd (' ' :: words)) := rfl
  rw [hcomment, ofMarker, strip_openingComment, if_pos hsentinel, hafter, ofOpening, hpayload]
  rfl

theorem isRole_closingMarker (hid : isId id) (noteOpen : Bool) :
    IsRole .standard noteOpen (closingMarker id) (some 0) (.closing (some id)) := by
  refine .marker ?_
  have hpayload := idAndText_of_isId hid []
  have hcomment : (closingMarker id).drop (0 + Dialect.standard.lineComment.length) =
      " @end(".toList ++ id ++ [')'] := rfl
  have hother : ¬startsMarker Dialect.standard.opening ("@end(".toList ++ id ++ [')']) :=
    Bool.false_ne_true
  have hsentinel : startsMarker Dialect.standard.closing ("@end(".toList ++ id ++ [')']) = true := rfl
  have hafter : ("@end(".toList ++ id ++ [')']).drop Dialect.standard.closing.length =
      '(' :: (id ++ [')']) := rfl
  rw [hcomment, ofMarker, strip_closingComment, if_neg hother, if_pos hsentinel, hafter, ofClosing,
    hpayload]
  rfl

/-- Another line may follow the one that opens a note. -/
theorem ended_openingMarker (hid : isId id) (hwords : Text.strip words = words)
    (hn : '\n' ∉ words) : Line.Ended (openingMarker id words, ['\n']) := by
  have hmarker : openingMarker id words = ['/', '/', ' ', '@', 'a', 'n', 'n', 'o', 't', 'a', 't', 'e',
      '('] ++ id ++ ')' :: ' ' :: words := rfl
  rw [hmarker]
  refine ⟨by simp [not_mem_of_isId (c := '\n') hid rfl, hn], .inr ⟨rfl, fun hlast => ?_⟩⟩
  rw [List.getLast?_append, List.getLast?_cons_cons] at hlast
  cases words with
  | nil => simp at hlast
  | cons c words =>
    rw [List.getLast?_cons_cons, ← hwords] at hlast
    have hblank : Text.strip (c :: words) ≠ [] := by rw [hwords]; simp
    rw [List.getLast?_eq_some_getLast hblank, Option.some_or] at hlast
    exact Text.not_isBlank_of_getLast?_stripEnd ((List.getLast?_eq_some_getLast hblank).trans hlast) rfl

theorem ended_closingMarker (hid : isId id) : Line.Ended (closingMarker id, ['\n']) := by
  have hmarker : closingMarker id = ['/', '/', ' ', '@', 'e', 'n', 'd', '('] ++ id ++ [')'] := rfl
  rw [hmarker]
  refine ⟨by simp [not_mem_of_isId (c := '\n') hid rfl], .inr ⟨rfl, ?_⟩⟩
  rw [List.getLast?_concat]
  decide

end Role

namespace Scan

theorem read_nil : (Lexer.start false).read [] = .code false := rfl

theorem findComment_openingMarker (id words : Text) :
    findComment .standard false (openingMarker id words) = some ⟨some 0, false⟩ :=
  findComment_of_read_code read_nil _

theorem findComment_closingMarker (id : Text) :
    findComment .standard false (closingMarker id) = some ⟨some 0, false⟩ :=
  findComment_of_read_code read_nil _

end Scan

end Marginalia
