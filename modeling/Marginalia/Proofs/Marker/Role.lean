import Marginalia.Marker.Role
import Marginalia.Proofs.Result
import Marginalia.Proofs.Text.Basic

/-!
# What makes a line what it is

Whether a note is open says only what a comment is that is no marker: on a line
of its own it is then a line of the note's text. Everything else follows from the
code before the comment and from the comment (`ofMarker`).

* `ofLine_eq_ok_iff`: the four ways a line comes to its role (`IsRole`);
* `isMarker_of_ofMarker`: what a marker can make of its line (`IsMarker`);
* `IsRole.shown_cases`: what of a kept line is displayed;
* `IsRole.alone_of_not_isKept`: a line that is not displayed has no code;
* `IsRole.isOpen_of_body`: a line of the text of a note stands where a note is open;
* `isOfComment_of_ofLine`: what can be wrong with a line by itself.
-/

namespace Marginalia

/-- What can be wrong with the comment of a line, whatever the lines around it are. -/
def Cause.IsOfComment : Cause → Prop
  | notAlone _ | detachedId | unclosedId | emptyId | invalidId _ | textAfterClosing _ _
  | emptyNote _ => True
  | strayBody | idInUse _ | nothingOpen | unknownId _ | neverClosed _ => False

namespace Role

/-- The role of a line with a note on it, given the code before it. -/
def ofNote (d : Dialect) (code text : Text) : Except Cause Role :=
  match Text.strip text with
  | [] => throw (.emptyNote d.note)
  | text =>
    if code.isBlankText then return note text
    else return plain code.stripEnd (some ⟨text, some code.stripEnd.length⟩)

/-- The role that a comment gives to its line, given the code before it, or none
    if the comment says nothing to the notes. -/
def ofMarker (d : Dialect) (code comment : Text) : Except Cause (Option Role) :=
  let words := comment.strip
  let alone := code.isBlankText
  if startsMarker d.opening words then
    if alone then some <$> ofOpening (words.drop d.opening.length)
    else throw (.notAlone d.opening)
  else if startsMarker d.closing words then
    if alone then some <$> ofClosing d.closing (words.drop d.closing.length)
    else throw (.notAlone d.closing)
  else
    match d.note.isPrefixOf? words with
    | some text => some <$> ofNote d code text
    | none => return none

/-- The role of a line whose comment says nothing to the notes. -/
def ofSilent (noteOpen : Bool) (line code comment : Text) : Role :=
  if code.isBlankText && noteOpen then body comment.stripEnd else plain line none

theorem getD_map_some (role : Role) (x : Except Cause Role) :
    (fun role? => Option.getD role? role) <$> some <$> x = x := by
  cases x <;> rfl

/-- Whether a note is open matters only for a comment that says nothing to the
    notes. -/
theorem ofComment_eq (d : Dialect) (noteOpen : Bool) (line code comment : Text) :
    ofComment d noteOpen line code comment =
      (fun role? => role?.getD (ofSilent noteOpen line code comment)) <$>
        ofMarker d code comment := by
  unfold ofComment ofMarker
  dsimp only
  split
  · split
    · rw [getD_map_some]
    · rfl
  · split
    · split
      · rw [getD_map_some]
      · rfl
    · cases d.note.isPrefixOf? comment.strip with
      | some text =>
        dsimp only
        rw [getD_map_some]
        rfl
      | none =>
        dsimp only [ofSilent]
        split <;> rfl

/-- The ways a line comes to its role, given where its line comment starts. -/
inductive IsRole (d : Dialect) (noteOpen : Bool) (line : Text) : Option Nat → Role → Prop
  /-- There is no comment on the line. -/
  | bare : IsRole d noteOpen line none (plain line none)
  /-- The comment is a marker or a note. -/
  | marker {column : Nat} {role : Role} :
    ofMarker d (line.take column) (line.drop (column + d.lineComment.length)) = .ok (some role) →
      IsRole d noteOpen line (some column) role
  /-- The comment says nothing to the notes. -/
  | silent {column : Nat} :
    ofMarker d (line.take column) (line.drop (column + d.lineComment.length)) = .ok none →
      IsRole d noteOpen line (some column)
        (ofSilent noteOpen line (line.take column) (line.drop (column + d.lineComment.length)))

variable {d : Dialect} {noteOpen : Bool} {line : Text} {column : Option Nat} {role : Role}

theorem ofLine_eq_ok_iff :
    ofLine d noteOpen line column = .ok role ↔ IsRole d noteOpen line column role := by
  cases column with
  | none =>
    refine ⟨fun h => ?_, fun h => by cases h; rfl⟩
    obtain rfl := Except.ok.inj h
    exact .bare
  | some column =>
    rw [ofLine, ofComment_eq, map_eq_ok]
    constructor
    · rintro ⟨role?, h, rfl⟩
      cases role? with
      | none => exact .silent h
      | some role => exact .marker h
    · intro h
      cases h with
      | marker h => exact ⟨_, h, rfl⟩
      | silent h => exact ⟨_, h, rfl⟩

/-- What a marker can make of its line, given the code before it. -/
inductive IsMarker (code : Text) : Role → Prop
  | opening {id : Option Text} {note : Text} : code.isBlankText → IsMarker code (opening id note)
  | closing {id : Option Text} : code.isBlankText → IsMarker code (closing id)
  | note {text : Text} : code.isBlankText → IsMarker code (note text)
  | remark {text : Text} : ¬code.isBlankText →
    IsMarker code (plain code.stripEnd (some ⟨text, some code.stripEnd.length⟩))

theorem isMarker_of_ofMarker {code comment : Text} (h : ofMarker d code comment = .ok (some role)) :
    IsMarker code role := by
  unfold ofMarker at h
  dsimp only at h
  split at h
  · split at h
    · rename_i halone
      obtain ⟨_, h, ⟨⟩⟩ := map_eq_ok.1 h
      obtain ⟨⟨id, text⟩, _, h⟩ := bind_eq_ok.1 h
      obtain rfl := Except.ok.inj h
      exact .opening halone
    · cases h
  · split at h
    · split at h
      · rename_i halone
        obtain ⟨_, h, ⟨⟩⟩ := map_eq_ok.1 h
        obtain ⟨⟨id, text⟩, _, h⟩ := bind_eq_ok.1 h
        cases text with
        | nil =>
          obtain rfl := Except.ok.inj h
          exact .closing halone
        | cons => cases h
      · cases h
    · split at h
      · obtain ⟨_, h, ⟨⟩⟩ := map_eq_ok.1 h
        unfold ofNote at h
        split at h
        · cases h
        · split at h
          · rename_i halone
            obtain rfl := Except.ok.inj h
            exact .note halone
          · rename_i halone
            obtain rfl := Except.ok.inj h
            exact .remark halone
      · cases h

theorem IsMarker.remark_ne_none {code shown : Text} {remark : Option Remark}
    (h : IsMarker code (plain shown remark)) : remark ≠ none := by
  cases h with
  | remark => simp

/-! ## Kept lines and the others -/

/-- What is displayed of a line that is kept: all of it, or, before a remark, the
    code without the blanks at its end. -/
theorem IsRole.shown_cases {shown : Text} {remark : Option Remark}
    (h : IsRole d noteOpen line column (plain shown remark)) :
    (shown = line ∧ remark = none) ∨
      ∃ start text, column = some start ∧ ¬Text.isBlankText (line.take start) ∧
        shown = Text.stripEnd (line.take start) ∧ remark = some ⟨text, some shown.length⟩ := by
  generalize hr : plain shown remark = role at h
  cases h with
  | bare =>
    obtain ⟨rfl, rfl⟩ := Role.plain.inj hr
    exact .inl ⟨rfl, rfl⟩
  | marker h =>
    subst hr
    cases isMarker_of_ofMarker h with
    | remark hcode => exact .inr ⟨_, _, rfl, hcode, rfl, rfl⟩
  | silent h =>
    unfold ofSilent at hr
    split at hr
    · exact Role.noConfusion hr
    · obtain ⟨rfl, rfl⟩ := Role.plain.inj hr
      exact .inl ⟨rfl, rfl⟩

/-- What is displayed of a line is the start of it, and if that is not all of it,
    it has something in it and does not end with a blank. -/
theorem IsRole.shown_isPrefix {shown : Text} (h : IsRole d noteOpen line column role)
    (hs : role.shown? = some shown) :
    shown <+: line ∧ (shown ≠ line → shown ≠ [] ∧ ∀ c, shown.getLast? = some c → ¬Text.isBlank c) := by
  cases role with
  | plain shown' remark =>
    obtain rfl := Option.some.inj hs
    rcases h.shown_cases with ⟨rfl, _⟩ | ⟨start, text, _, hcode, rfl, _⟩
    · exact ⟨List.prefix_refl _, fun hne => absurd rfl hne⟩
    · exact ⟨(Text.stripEnd_isPrefix _).trans (List.take_prefix _ _), fun _ =>
        ⟨fun hnil => hcode (Text.stripEnd_eq_nil_iff.1 hnil),
          fun _ => Text.not_isBlank_of_getLast?_stripEnd⟩⟩
  | opening | closing | body | note => cases hs

/-- A line that is displayed as it is stays so, whatever notes are open, unless
    it is a comment on a line of its own and a note is open. -/
theorem IsRole.plain_self {noteOpen' : Bool} (h : IsRole d noteOpen line column (plain line none))
    (hcode : noteOpen' → ∀ start, column = some start → ¬Text.isBlankText (line.take start)) :
    IsRole d noteOpen' line column (plain line none) := by
  generalize hr : plain line none = role at h ⊢
  cases h with
  | bare => exact .bare
  | marker h =>
    subst hr
    exact absurd rfl (isMarker_of_ofMarker h).remark_ne_none
  | @silent start h =>
    have hs : ofSilent noteOpen' line (line.take start) (line.drop (start + d.lineComment.length)) =
        plain line none := by
      rw [ofSilent, if_neg]
      rw [Bool.and_eq_true]
      exact fun ⟨hblank, hopen⟩ => hcode hopen start rfl hblank
    rw [← hr, ← hs]
    exact .silent h

/-- A line that is not displayed has a comment and no code before it. -/
theorem IsRole.alone_of_not_isKept (h : IsRole d noteOpen line column role)
    (hk : ¬role.isKept) : ∃ start, column = some start ∧ Text.isBlankText (line.take start) := by
  cases h with
  | bare => exact absurd rfl hk
  | marker h =>
    cases isMarker_of_ofMarker h with
    | opening hcode | closing hcode | note hcode => exact ⟨_, rfl, hcode⟩
    | remark => exact absurd rfl hk
  | silent h =>
    unfold ofSilent at hk
    split at hk
    · rename_i hcode
      rw [Bool.and_eq_true] at hcode
      exact ⟨_, rfl, hcode.1⟩
    · exact absurd rfl hk

/-! ## Lines of the text of a note -/

/-- A comment is a line of the text of a note only while a note is open. -/
theorem IsRole.isOpen_of_body {text : Text} (h : IsRole d noteOpen line column (body text)) :
    noteOpen = true := by
  generalize hr : body text = role at h
  cases h with
  | bare => cases hr
  | marker h =>
    subst hr
    cases isMarker_of_ofMarker h
  | silent =>
    unfold ofSilent at hr
    split at hr
    next hopen => exact (Bool.and_eq_true_iff.1 hopen).2
    · cases hr

/-! ## What can be wrong with a line -/

theorem isOfComment_of_idAndText {payload : Text} {cause : Cause}
    (h : idAndText payload = .error cause) : cause.IsOfComment := by
  unfold idAndText at h
  split at h
  · split at h
    · obtain rfl := Except.error.inj h
      trivial
    split at h
    · obtain rfl := Except.error.inj h
      trivial
    split at h
    · cases h
    · obtain rfl := Except.error.inj h
      trivial
  · split at h
    · obtain rfl := Except.error.inj h
      trivial
    · cases h

theorem isOfComment_of_ofMarker {code comment : Text} {cause : Cause}
    (h : ofMarker d code comment = .error cause) : cause.IsOfComment := by
  unfold ofMarker at h
  dsimp only at h
  split at h
  · split at h
    · rcases bind_eq_error.1 (map_eq_error.1 h) with h | ⟨⟨id, text⟩, -, h⟩
      · exact isOfComment_of_idAndText h
      · cases h
    · obtain rfl := Except.error.inj h
      trivial
  · split at h
    · split at h
      · rcases bind_eq_error.1 (map_eq_error.1 h) with h | ⟨⟨id, text⟩, -, h⟩
        · exact isOfComment_of_idAndText h
        · cases text with
          | nil => cases h
          | cons =>
            obtain rfl := Except.error.inj h
            trivial
      · obtain rfl := Except.error.inj h
        trivial
    · split at h
      · have h := map_eq_error.1 h
        unfold ofNote at h
        split at h
        · obtain rfl := Except.error.inj h
          trivial
        · split at h <;> cases h
      · cases h

/-- What is wrong with a line by itself is wrong with its comment. -/
theorem isOfComment_of_ofLine {cause : Cause} (h : ofLine d noteOpen line column = .error cause) :
    cause.IsOfComment := by
  cases column with
  | none => cases h
  | some column =>
    rw [ofLine, ofComment_eq] at h
    exact isOfComment_of_ofMarker (map_eq_error.1 h)

end Role

end Marginalia
