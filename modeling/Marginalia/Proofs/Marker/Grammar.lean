import Marginalia.Proofs.Marker.Written

/-!
# How markers are written

A marker is a comment, blanks at its ends not counting, that starts with the word of
the marker and goes on in one of three ways (`Marker.Gives`): not at all, with a blank and
a text, or with an id in parentheses and a text. A comment that starts with the word and
goes on in another way, but not so that the word is part of a longer one, is a defect
(`Marker.StartsWith`).

* `Marker.spells_write`: a marker with an id and a text is one with that id and that text,
  however much room is left around it;
* `Role.idAndText_eq_ok_iff`: what follows the word of a marker is read as the grammar has it;
* `Role.ofComment_eq_opening_iff`, `Role.ofComment_eq_closing_iff`: the comments that open and
  close notes.
-/

namespace Marginalia

theorem Dialect.opening_standard : Dialect.standard.opening = "@annotate".toList := rfl

theorem Dialect.closing_standard : Dialect.standard.closing = "@end".toList := rfl

namespace Marker

/-- What may come after the word of a marker, so that it is one: the end, a blank or a
    parenthesis. -/
inductive IsDelimited : Text → Prop
  | nothing : IsDelimited []
  | blank {c : Char} {rest : Text} : Text.isBlank c → IsDelimited (c :: rest)
  | parenthesis {rest : Text} : IsDelimited ('(' :: rest)

/-- What comes after the word of a marker, with the id and the text that it gives. -/
inductive Gives : Text → Option Text → Text → Prop
  | nothing : Gives [] none []
  /-- A text that is set off by a blank and does not start with a parenthesis. -/
  | text {c : Char} {rest : Text} : Text.isBlank c → rest.stripStart.head? ≠ some '(' →
      Gives (c :: rest) none rest.strip
  /-- An id in parentheses, which end with the first closing one, and a text. -/
  | id {inside rest : Text} : ')' ∉ inside → Role.isId inside.strip →
      Gives ('(' :: (inside ++ ')' :: rest)) (some inside.strip) rest.strip

/-- A comment starts with the word of a marker, which is not part of a longer word. -/
def StartsWith (word comment : Text) : Prop :=
  ∃ payload, comment = word ++ payload ∧ IsDelimited payload

/-- A comment is a marker of that word, with that id and that text. -/
def Spells (word comment : Text) (id : Option Text) (text : Text) : Prop :=
  ∃ payload, comment = word ++ payload ∧ Gives payload id text

variable {word comment payload text : Text} {id : Option Text}

theorem Gives.isDelimited (h : Gives payload id text) : IsDelimited payload := by
  cases h with
  | nothing => exact .nothing
  | text hc => exact .blank hc
  | id => exact .parenthesis

theorem Spells.startsWith (h : Spells word comment id text) : StartsWith word comment := by
  obtain ⟨payload, hcomment, hgives⟩ := h
  exact ⟨payload, hcomment, hgives.isDelimited⟩

/-- An id in parentheses, without blanks at its ends. -/
theorem Gives.of_isId {id : Text} (h : Role.isId id) (rest : Text) :
    Gives ('(' :: (id ++ ')' :: rest)) (some id) rest.strip := by
  have hstrip := Role.strip_of_isId h
  have hgives : Gives ('(' :: (id ++ ')' :: rest)) (some id.strip) rest.strip :=
    .id (Role.not_mem_of_isId h rfl) (hstrip.symm ▸ h)
  rwa [hstrip] at hgives

/-- What is after the word of a marker is determined by the comment. -/
theorem spells_iff_gives (h : comment = word ++ payload) :
    Spells word comment id text ↔ Gives payload id text := by
  refine ⟨fun ⟨other, hother, hgives⟩ => ?_, fun hgives => ⟨payload, h, hgives⟩⟩
  exact List.append_cancel_left (h.symm.trans hother) ▸ hgives

/-- No comment starts with the words of both kinds of markers. -/
theorem StartsWith.not_opening (h : StartsWith Dialect.standard.closing comment) :
    ¬StartsWith Dialect.standard.opening comment := by
  obtain ⟨payload, rfl, -⟩ := h
  rintro ⟨other, hother, -⟩
  have hsecond : some 'e' = some 'a' := congrArg (·[1]?) hother
  exact absurd hsecond (by decide)

/-! ## Written markers -/

/-- The id of a marker, in parentheses. -/
def tag : Option Text → Text
  | none => []
  | some id => '(' :: (id ++ [')'])

/-- A marker as it is written, with a gap between the word and the text. -/
def write (word : Text) (id : Option Text) (gap text : Text) : Text :=
  word ++ tag id ++ gap ++ text

/-- A marker can have such an id and such a text, with that gap between. -/
structure CanHave (id : Option Text) (gap text : Text) : Prop where
  isId : ∀ name, id = some name → Role.isId name
  strip : text.strip = text
  blank : ∀ c ∈ gap, Text.isBlank c
  /-- Without an id a gap sets off the text, which does not start with a parenthesis. -/
  bare : id = none → text ≠ [] → gap ≠ [] ∧ text.head? ≠ some '('

theorem strip_tag {word : Text} (hword : word.strip = word) (hne : word ≠ []) :
    (word ++ tag id).strip = word ++ tag id := by
  cases id with
  | none => rwa [tag, List.append_nil]
  | some id =>
    obtain ⟨c, word, rfl⟩ := List.exists_cons_of_ne_nil hne
    refine Text.strip_eq_self_iff.2 ⟨(Text.strip_eq_self_iff.1 hword).1, fun d hd => ?_⟩
    rw [tag, ← List.cons_append, ← List.append_assoc, List.getLast?_concat] at hd
    obtain rfl := Option.some.inj hd
    decide

namespace CanHave

variable {gap : Text} (h : CanHave id gap text)
include h

/-- Without a text the gap is not needed. -/
theorem gives_tag : Gives (tag id) id [] := by
  cases id with
  | none => exact .nothing
  | some id => exact .of_isId (h.isId id rfl) []

theorem gives (htext : text ≠ []) : Gives (tag id ++ (gap ++ text)) id text := by
  have hstrip : Text.strip (gap ++ text) = text := by
    have := Text.strip_surround h.blank (b := []) (by simp) text
    rwa [List.append_nil, h.strip] at this
  cases id with
  | none =>
    obtain ⟨hgap, hhead⟩ := h.bare rfl htext
    obtain ⟨c, gap, rfl⟩ := List.exists_cons_of_ne_nil hgap
    obtain ⟨hc, hrest⟩ := List.forall_mem_cons.1 h.blank
    rw [List.cons_append, Text.strip_cons_of_isBlank hc] at hstrip
    have hstart : Text.stripStart (gap ++ text) = text := by
      rw [Text.stripStart, List.dropWhile_append_of_pos hrest]
      obtain ⟨d, text, rfl⟩ := List.exists_cons_of_ne_nil htext
      exact List.dropWhile_cons_of_neg (Text.not_isBlank_head h.strip)
    have hgives : Gives (c :: (gap ++ text)) none (Text.strip (gap ++ text)) :=
      .text hc (hstart.symm ▸ hhead)
    rwa [hstrip] at hgives
  | some id =>
    have hgives := Gives.of_isId (h.isId id rfl) (gap ++ text)
    rw [hstrip] at hgives
    rwa [tag, List.cons_append, List.append_assoc]

end CanHave

/-- Without the blanks at its ends, a written marker is its word and what the word, the id and
    the text give. -/
theorem spells_write {room gap trail : Text} (hword : word.strip = word) (hne : word ≠ [])
    (h : CanHave id gap text) (hroom : ∀ c ∈ room, Text.isBlank c)
    (htrail : ∀ c ∈ trail, Text.isBlank c) :
    Spells word (Text.strip (room ++ write word id gap text ++ trail)) id text := by
  by_cases htext : text = []
  · -- The gap is stripped with the blanks at the end.
    subst htext
    have hblanks : ∀ c ∈ gap ++ trail, Text.isBlank c := List.forall_mem_append.2 ⟨h.blank, htrail⟩
    have hwords : Text.strip (room ++ write word id gap [] ++ trail) = word ++ tag id := by
      rw [write, List.append_nil, ← List.append_assoc, List.append_assoc _ gap,
        Text.strip_surround hroom hblanks, strip_tag hword hne]
    exact ⟨tag id, hwords, h.gives_tag⟩
  · have hwords : Text.strip (room ++ write word id gap text ++ trail) =
        word ++ (tag id ++ (gap ++ text)) := by
      obtain ⟨hhead, -⟩ := Text.strip_eq_self_iff.1 hword
      obtain ⟨-, hlast⟩ := Text.strip_eq_self_iff.1 h.strip
      rw [Text.strip_surround hroom htrail, write, List.append_assoc, List.append_assoc]
      refine Text.strip_eq_self_iff.2 ⟨fun c hc => hhead c ?_, fun c hc => hlast c ?_⟩
      · rwa [List.head?_append_of_ne_nil _ hne] at hc
      · rwa [← List.append_assoc, ← List.append_assoc,
          List.getLast?_append_of_ne_nil _ htext] at hc
    exact ⟨_, hwords, h.gives htext⟩

end Marker

namespace Role

open Marker

variable {word comment payload text : Text} {id : Option Text}

theorem startsMarker_iff : startsMarker word comment = true ↔ StartsWith word comment := by
  rw [startsMarker]
  constructor
  · intro h
    split at h
    · cases h
    next hrest => exact ⟨[], Text.eq_append_of_isPrefixOf? hrest, .nothing⟩
    next c rest hrest =>
      refine ⟨c :: rest, Text.eq_append_of_isPrefixOf? hrest, ?_⟩
      rcases Bool.or_eq_true_iff.1 h with hblank | hopen
      · exact .blank hblank
      · exact eq_of_beq hopen ▸ .parenthesis
  · rintro ⟨payload, rfl, hpayload⟩
    rw [List.isPrefixOf?_eq_some_iff_append_eq.2 rfl]
    cases hpayload with
    | nothing => rfl
    | blank hc => exact Bool.or_eq_true_iff.2 (.inl hc)
    | parenthesis => rfl

/-! ## What follows the word -/

/-- A text that is set off by a blank may not start with a parenthesis. -/
theorem idAndText_blank {c : Char} (hc : Text.isBlank c) (rest : Text) : idAndText (c :: rest) =
    if rest.stripStart.head? = some '(' then .error .detachedId else .ok (none, rest.strip) := by
  have hstart : Text.stripStart (c :: rest) = rest.stripStart := List.dropWhile_cons_of_pos hc
  have hparenthesis : ['('].isPrefixOf rest.stripStart = true ↔ rest.stripStart.head? = some '(' := by
    cases rest.stripStart with
    | nil => decide
    | cons d rest =>
      rw [List.isPrefixOf_cons_cons, List.isPrefixOf_nil_left, Bool.and_true, beq_iff_eq, List.head?_cons,
        Option.some.injEq, eq_comm]
  unfold idAndText
  split
  next heq =>
    obtain ⟨rfl, -⟩ := List.cons.inj heq
    exact absurd hc (by decide)
  next => rw [hstart, Text.strip_cons_of_isBlank hc, if_congr hparenthesis rfl rfl]

/-- A parenthesis must be closed. -/
theorem idAndText_unclosed (h : ')' ∉ payload) : idAndText ('(' :: payload) = .error .unclosedId := by
  have hdrop : payload.dropWhile (· != ')') = [] :=
    List.dropWhile_eq_nil_iff.2 fun c hc => bne_iff_ne.2 fun heq => h (heq ▸ hc)
  rw [idAndText, hdrop]

/-- What follows the word of a marker gives an id and a text exactly as the grammar has it. -/
theorem idAndText_eq_ok_iff (h : IsDelimited payload) :
    idAndText payload = .ok (id, text) ↔ Gives payload id text := by
  constructor
  · intro hread
    cases h with
    | nothing =>
      obtain ⟨rfl, rfl⟩ := Prod.mk.inj (Except.ok.inj hread)
      exact .nothing
    | blank hc =>
      rw [idAndText_blank hc] at hread
      split at hread
      · cases hread
      next hhead =>
        obtain ⟨rfl, rfl⟩ := Prod.mk.inj (Except.ok.inj hread)
        exact .text hc hhead
    | @parenthesis rest =>
      by_cases hclosed : ')' ∈ rest
      · obtain ⟨inside, after, rfl, hinside⟩ := List.eq_append_cons_of_mem hclosed
        rw [idAndText_closed hinside] at hread
        split at hread
        next hid =>
          obtain ⟨rfl, rfl⟩ := Prod.mk.inj (Except.ok.inj hread)
          exact .id hinside hid
        · cases hread
      · rw [idAndText_unclosed hclosed] at hread
        cases hread
  · intro hgives
    cases hgives with
    | nothing => rfl
    | text hc hhead => rw [idAndText_blank hc, if_neg hhead]
    | id hinside hid => rw [idAndText_closed hinside, if_pos hid]

/-! ## Comments with a marker's word -/

theorem ofOpening_eq_ok_iff {role : Role} : ofOpening payload = .ok role ↔
    ∃ id text, idAndText payload = .ok (id, text) ∧ role = opening id text := by
  rw [ofOpening, bind_eq_ok]
  constructor
  · rintro ⟨⟨id, text⟩, hread, hrole⟩
    exact ⟨id, text, hread, (Except.ok.inj hrole).symm⟩
  · rintro ⟨id, text, hread, rfl⟩
    exact ⟨(id, text), hread, rfl⟩

theorem ofClosing_eq_ok_iff {role : Role} : ofClosing word payload = .ok role ↔
    ∃ id, idAndText payload = .ok (id, []) ∧ role = closing id := by
  rw [ofClosing, bind_eq_ok]
  constructor
  · rintro ⟨⟨id, text⟩, hread, hrole⟩
    cases text with
    | nil => exact ⟨id, hread, (Except.ok.inj hrole).symm⟩
    | cons => cases hrole
  · rintro ⟨id, hread, rfl⟩
    exact ⟨(id, []), hread, rfl⟩

variable {d : Dialect} {noteOpen : Bool} {line code comment : Text} {role : Role}

/-- A comment with the word of an opening marker opens a note or is wrong. -/
theorem ofComment_of_opening (hcomment : comment.strip = d.opening ++ payload)
    (h : IsDelimited payload) : ofComment d noteOpen line code comment =
      if code.isBlankText then ofOpening payload else .error (.notAlone d.opening) := by
  have hstarts : startsMarker d.opening comment.strip = true :=
    startsMarker_iff.2 ⟨payload, hcomment, h⟩
  unfold ofComment
  dsimp only
  rw [if_pos hstarts, hcomment, List.drop_left]
  rfl

/-- A comment with the word of a closing marker closes a note or is wrong. -/
theorem ofComment_of_closing (hother : ¬StartsWith d.opening comment.strip)
    (hcomment : comment.strip = d.closing ++ payload) (h : IsDelimited payload) :
    ofComment d noteOpen line code comment =
      if code.isBlankText then ofClosing d.closing payload else .error (.notAlone d.closing) := by
  have hends : startsMarker d.closing comment.strip = true :=
    startsMarker_iff.2 ⟨payload, hcomment, h⟩
  unfold ofComment
  dsimp only
  rw [if_neg fun hstarts => hother (startsMarker_iff.1 hstarts), if_pos hends, hcomment,
    List.drop_left]
  rfl

/-- Any other comment neither opens nor closes a note. -/
theorem ofComment_of_silent (hopening : ¬StartsWith d.opening comment.strip)
    (hclosing : ¬StartsWith d.closing comment.strip)
    (h : ofComment d noteOpen line code comment = .ok role) :
    (∀ id text, role ≠ opening id text) ∧ ∀ id, role ≠ closing id := by
  unfold ofComment at h
  dsimp only at h
  rw [if_neg fun hstarts => hopening (startsMarker_iff.1 hstarts),
    if_neg fun hstarts => hclosing (startsMarker_iff.1 hstarts)] at h
  split at h
  · split at h
    · cases h
    · split at h <;> obtain rfl := Except.ok.inj h <;> simp
  · split at h <;> obtain rfl := Except.ok.inj h <;> simp

/-- A comment opens a note exactly if it is a marker that does, alone on its line. -/
theorem ofComment_eq_opening_iff {note : Text} :
    ofComment .standard noteOpen line code comment = .ok (opening id note) ↔
      code.isBlankText ∧ Spells "@annotate".toList comment.strip id note := by
  rw [← Dialect.opening_standard]
  by_cases hopening : StartsWith Dialect.standard.opening comment.strip
  · obtain ⟨payload, hcomment, hdelimited⟩ := hopening
    rw [ofComment_of_opening hcomment hdelimited, spells_iff_gives hcomment,
      ← idAndText_eq_ok_iff hdelimited]
    split
    next hcode =>
      rw [ofOpening_eq_ok_iff]
      refine ⟨fun ⟨_, _, hread, hrole⟩ => ?_, fun ⟨_, hread⟩ => ⟨id, note, hread, rfl⟩⟩
      obtain ⟨rfl, rfl⟩ := Role.opening.inj hrole
      exact ⟨hcode, hread⟩
    next hcode => exact iff_of_false (fun h => by cases h) fun h => hcode h.1
  · refine iff_of_false (fun h => ?_) fun h => hopening h.2.startsWith
    by_cases hclosing : StartsWith Dialect.standard.closing comment.strip
    · obtain ⟨payload, hcomment, hdelimited⟩ := hclosing
      rw [ofComment_of_closing hopening hcomment hdelimited] at h
      split at h
      · obtain ⟨_, -, hrole⟩ := ofClosing_eq_ok_iff.1 h
        cases hrole
      · cases h
    · exact (ofComment_of_silent hopening hclosing h).1 _ _ rfl

/-- A comment closes a note exactly if it is a marker that does, with no text, alone on its
    line. -/
theorem ofComment_eq_closing_iff :
    ofComment .standard noteOpen line code comment = .ok (closing id) ↔
      code.isBlankText ∧ Spells "@end".toList comment.strip id [] := by
  rw [← Dialect.closing_standard]
  by_cases hclosing : StartsWith Dialect.standard.closing comment.strip
  · have hopening := hclosing.not_opening
    obtain ⟨payload, hcomment, hdelimited⟩ := hclosing
    rw [ofComment_of_closing hopening hcomment hdelimited, spells_iff_gives hcomment,
      ← idAndText_eq_ok_iff hdelimited]
    split
    next hcode =>
      rw [ofClosing_eq_ok_iff]
      refine ⟨fun ⟨_, hread, hrole⟩ => ?_, fun ⟨_, hread⟩ => ⟨id, hread, rfl⟩⟩
      obtain rfl := Role.closing.inj hrole
      exact ⟨hcode, hread⟩
    next hcode => exact iff_of_false (fun h => by cases h) fun h => hcode h.1
  · refine iff_of_false (fun h => ?_) fun h => hclosing h.2.startsWith
    by_cases hopening : StartsWith Dialect.standard.opening comment.strip
    · obtain ⟨payload, hcomment, hdelimited⟩ := hopening
      rw [ofComment_of_opening hcomment hdelimited] at h
      split at h
      · obtain ⟨_, _, -, hrole⟩ := ofOpening_eq_ok_iff.1 h
        cases hrole
      · cases h
    · exact (ofComment_of_silent hopening hclosing h).2 _ rfl

/-- A comment with the word of a marker opens or closes a note, if it is not wrong. -/
theorem ofComment_of_startsWith (h : StartsWith "@annotate".toList comment.strip ∨
      StartsWith "@end".toList comment.strip)
    (hrole : ofComment .standard noteOpen line code comment = .ok role) :
    (∃ id text, role = opening id text) ∨ ∃ id, role = closing id := by
  rcases h with ⟨payload, hcomment, hdelimited⟩ | hclosing
  · rw [ofComment_of_opening hcomment hdelimited] at hrole
    split at hrole
    · obtain ⟨id, text, -, rfl⟩ := ofOpening_eq_ok_iff.1 hrole
      exact .inl ⟨id, text, rfl⟩
    · cases hrole
  · have hopening := hclosing.not_opening
    obtain ⟨payload, hcomment, hdelimited⟩ := hclosing
    rw [ofComment_of_closing hopening hcomment hdelimited] at hrole
    split at hrole
    · obtain ⟨id, -, rfl⟩ := ofClosing_eq_ok_iff.1 hrole
      exact .inr ⟨id, rfl⟩
    · cases hrole

end Role

end Marginalia
