import Mathlib.Data.List.TakeWhile
import Marginalia.Page.Image

/-!
# Attributes in markup

A text is cut into attributes with the links to images and the characters it keeps as they
are, those at which no attribute starts. There is one such cut of every text
(`exists_isCut`, `IsCut.eq_of_textOf_eq`), and links are put into the attributes of the
cut (`relink_textOf`).

* `relink_append`: a link is put into the attribute a text starts with;
* `relink_append_key`: what is before the first key stays as it is.
-/

namespace Marginalia.Image

/-- An attribute with the link to an image. -/
structure Attribute where
  /-- The quote before the value. -/
  opening : Char
  value : Text
  /-- The quote after the value. -/
  closing : Char
  deriving DecidableEq, Repr

namespace Attribute

/-- The attribute as it is written. -/
def text (a : Attribute) : Text := key ++ a.opening :: (a.value ++ [a.closing])

/-- An attribute in double quotes. -/
def ofLink (link : Text) : Attribute := ⟨'"', link, '"'⟩

/-- The quotes are of either kind, and the value is not empty and holds nothing that ends it. -/
structure IsWellFormed (a : Attribute) : Prop where
  opening : isQuote a.opening = true
  closing : isQuote a.closing = true
  value_ne_nil : a.value ≠ []
  value : ∀ c ∈ a.value, isValue c = true

end Attribute

/-- A text starts with an attribute. -/
def Starts (s : Text) : Prop := ∃ a : Attribute, a.IsWellFormed ∧ a.text <+: s

variable {a b : Attribute} {c quote : Char} {link : Text → Text} {s t : Text}

theorem isValue_of_isQuote (h : isQuote c = true) : ¬isValue c = true := by
  rw [isValue, h]
  exact Bool.false_ne_true

/-! ## The first attribute -/

/-- The value of an attribute and what follows it, as they are read. -/
theorem source?_eq_some_iff {value after : Text} : source? s = some (value, after) ↔
    ∃ a : Attribute, a.IsWellFormed ∧ a.value = value ∧ a.text ++ after = s := by
  constructor
  · intro h
    unfold source? at h
    split at h
    · rename_i quote rest hs
      have hs := Text.eq_append_of_isPrefixOf? hs
      split at h
      · rename_i first more closing tail htake hdrop
        split at h
        · rename_i hquotes
          rw [Bool.and_eq_true] at hquotes
          obtain ⟨rfl, rfl⟩ := Prod.mk.inj (Option.some.inj h)
          refine ⟨⟨quote, rest.takeWhile isValue, closing⟩, ⟨hquotes.1, hquotes.2, ?_, ?_⟩, rfl, ?_⟩
          · rw [htake]
            exact List.cons_ne_nil _ _
          · exact fun c hc => List.mem_takeWhile_imp hc
          · rw [hs]
            simp only [Attribute.text, List.append_assoc, List.cons_append, List.nil_append]
            rw [← hdrop, List.takeWhile_append_dropWhile]
        · cases h
      · cases h
    · cases h
  · rintro ⟨⟨opening, value, closing⟩, ⟨hopening, hclosing, hne, hvalue⟩, rfl, rfl⟩
    have hstart : key.isPrefixOf? (Attribute.text ⟨opening, value, closing⟩ ++ after) =
        some (opening :: (value ++ closing :: after)) := by
      simp only [Attribute.text, List.append_assoc, List.cons_append, List.nil_append]
      rfl
    have htake : (value ++ closing :: after).takeWhile isValue = value := by
      rw [List.takeWhile_append_of_pos hvalue,
        List.takeWhile_cons_of_neg (isValue_of_isQuote hclosing), List.append_nil]
    have hdrop : (value ++ closing :: after).dropWhile isValue = closing :: after := by
      rw [List.dropWhile_append_of_pos hvalue,
        List.dropWhile_cons_of_neg (isValue_of_isQuote hclosing)]
    obtain ⟨first, more, rfl⟩ := List.exists_cons_of_ne_nil hne
    simp only [source?, hstart, htake, hdrop, hopening, hclosing, Bool.and_self, if_true]

theorem source?_append (h : a.IsWellFormed) (s : Text) :
    source? (a.text ++ s) = some (a.value, s) := source?_eq_some_iff.2 ⟨a, h, rfl, rfl⟩

theorem source?_eq_none_iff : source? s = none ↔ ¬Starts s := by
  rw [← not_iff_not, not_not, ← ne_eq, Option.ne_none_iff_exists']
  constructor
  · rintro ⟨⟨value, after⟩, h⟩
    obtain ⟨a, ha, -, rfl⟩ := source?_eq_some_iff.1 h
    exact ⟨a, ha, List.prefix_append ..⟩
  · rintro ⟨a, ha, after, rfl⟩
    exact ⟨_, source?_eq_some_iff.2 ⟨a, ha, rfl, rfl⟩⟩

theorem relink_nil (link : Text → Text) : relink link [] = [] := by
  rw [relink]
  split
  · rename_i h
    cases h
  · rfl

theorem relink_append (h : a.IsWellFormed) (link : Text → Text) (s : Text) :
    relink link (a.text ++ s) = (Attribute.ofLink (link a.value)).text ++ relink link s := by
  rw [relink]
  split
  · rename_i value after hsource
    rw [source?_append h] at hsource
    obtain ⟨rfl, rfl⟩ := Prod.mk.inj (Option.some.inj hsource)
    simp only [Attribute.text, Attribute.ofLink, List.append_assoc, List.cons_append,
      List.nil_append]
  · rename_i hsource
    exact absurd ⟨a, h, List.prefix_append ..⟩ (source?_eq_none_iff.1 hsource)

theorem relink_cons (h : ¬Starts (c :: s)) (link : Text → Text) :
    relink link (c :: s) = c :: relink link s := by
  rw [relink]
  split
  · rename_i hsource
    rw [source?_eq_none_iff.2 h] at hsource
    cases hsource
  · rfl

/-! ## The cut of a text -/

/-- A part of a text: a character that is kept as it is, or an attribute. -/
inductive Part
  | kept (c : Char)
  | source (a : Attribute)
  deriving DecidableEq, Repr

/-- The part as it is written. -/
def Part.text : Part → Text
  | kept c => [c]
  | source a => a.text

/-- The part with a link in place of the value of an attribute. -/
def Part.relinked (link : Text → Text) : Part → Part
  | kept c => kept c
  | source a => source (.ofLink (link a.value))

/-- The text that parts make. -/
def textOf (parts : List Part) : Text := parts.flatMap Part.text

/-- The parts of a text are its attributes, from the first one on, and the characters at which
    none starts. -/
structure IsCut (parts : List Part) : Prop where
  isWellFormed : ∀ a, .source a ∈ parts → a.IsWellFormed
  not_starts : ∀ before c after, parts = before ++ .kept c :: after → ¬Starts (c :: textOf after)

variable {part : Part} {parts : List Part}

theorem textOf_cons (part : Part) (parts : List Part) :
    textOf (part :: parts) = part.text ++ textOf parts := List.flatMap_cons

theorem isCut_nil : IsCut [] :=
  ⟨fun _ h => absurd h List.not_mem_nil, fun _ _ _ h => absurd h (by simp)⟩

theorem IsCut.tail (h : IsCut (part :: parts)) : IsCut parts :=
  ⟨fun a ha => h.isWellFormed a (List.mem_cons_of_mem _ ha), fun before c after hparts =>
    h.not_starts (part :: before) c after (by rw [hparts, List.cons_append])⟩

theorem isCut_kept_iff :
    IsCut (.kept c :: parts) ↔ ¬Starts (c :: textOf parts) ∧ IsCut parts := by
  constructor
  · exact fun h => ⟨h.not_starts [] c parts rfl, h.tail⟩
  · rintro ⟨hc, h⟩
    refine ⟨fun a ha => ?_, fun before d after hparts => ?_⟩
    · exact h.isWellFormed a ((List.mem_cons.1 ha).resolve_left Part.noConfusion)
    · cases before with
      | nil =>
        obtain ⟨rfl, rfl⟩ : c = d ∧ parts = after := by simpa using hparts
        exact hc
      | cons first before => exact h.not_starts before d after (List.cons.inj hparts).2

theorem isCut_source_iff : IsCut (.source a :: parts) ↔ a.IsWellFormed ∧ IsCut parts := by
  constructor
  · exact fun h => ⟨h.isWellFormed a List.mem_cons_self, h.tail⟩
  · rintro ⟨ha, h⟩
    refine ⟨fun b hb => ?_, fun before d after hparts => ?_⟩
    · rcases List.mem_cons.1 hb with hb | hb
      · exact Part.source.inj hb ▸ ha
      · exact h.isWellFormed b hb
    · cases before with
      | nil => cases (List.cons.inj hparts).1
      | cons first before => exact h.not_starts before d after (List.cons.inj hparts).2

theorem Attribute.text_ne_nil (a : Attribute) : a.text ≠ [] := List.cons_ne_nil _ _

/-- Every text has a cut. -/
theorem exists_isCut (s : Text) : ∃ parts, IsCut parts ∧ textOf parts = s := by
  induction hlength : s.length using Nat.strong_induction_on generalizing s with
  | _ n ih =>
    subst hlength
    by_cases hstarts : Starts s
    · obtain ⟨a, ha, after, rfl⟩ := hstarts
      have hshorter : after.length < (a.text ++ after).length := by
        rw [List.length_append]
        exact Nat.lt_add_of_pos_left (List.length_pos_iff.2 a.text_ne_nil)
      obtain ⟨parts, hparts, rfl⟩ := ih _ hshorter after rfl
      exact ⟨.source a :: parts, isCut_source_iff.2 ⟨ha, hparts⟩, textOf_cons _ _⟩
    · cases s with
      | nil => exact ⟨[], isCut_nil, rfl⟩
      | cons c rest =>
        obtain ⟨parts, hparts, rfl⟩ := ih _ (Nat.lt_succ_self _) rest rfl
        exact ⟨.kept c :: parts, isCut_kept_iff.2 ⟨hstarts, hparts⟩, textOf_cons _ _⟩

/-- Texts that start with an attribute start with the same one if they are the same. -/
theorem Attribute.IsWellFormed.eq_of_append_eq (ha : a.IsWellFormed) (hb : b.IsWellFormed)
    (h : a.text ++ s = b.text ++ t) : a = b ∧ s = t := by
  have hsource := source?_append ha s
  rw [h, source?_append hb t] at hsource
  obtain ⟨hvalue, rfl⟩ := Prod.mk.inj (Option.some.inj hsource)
  have htext := List.append_cancel_left (List.append_cancel_right h)
  obtain ⟨opening, value, closing⟩ := a
  obtain ⟨opening', value', closing'⟩ := b
  obtain rfl : value' = value := hvalue
  obtain ⟨rfl, hrest⟩ := List.cons.inj htext
  obtain rfl : closing = closing' := List.singleton_inj.1 (List.append_cancel_left hrest)
  exact ⟨rfl, rfl⟩

/-- A text has one cut only. -/
theorem IsCut.eq_of_textOf_eq {others : List Part} (h : IsCut parts) (hothers : IsCut others)
    (htext : textOf parts = textOf others) : parts = others := by
  induction parts generalizing others with
  | nil =>
    cases others with
    | nil => rfl
    | cons other others =>
      rw [textOf_cons] at htext
      cases other with
      | kept d => cases htext
      | source b => cases htext
  | cons part parts ih =>
    cases others with
    | nil =>
      rw [textOf_cons] at htext
      cases part with
      | kept c => cases htext
      | source a => cases htext
    | cons other others =>
      rw [textOf_cons, textOf_cons] at htext
      cases part with
      | kept c =>
        rw [isCut_kept_iff] at h
        cases other with
        | kept d =>
          obtain ⟨rfl, hrest⟩ := List.cons.inj htext
          rw [ih h.2 (isCut_kept_iff.1 hothers).2 hrest]
        | source b =>
          exact absurd ⟨b, (isCut_source_iff.1 hothers).1, textOf others, htext.symm⟩ h.1
      | source a =>
        rw [isCut_source_iff] at h
        cases other with
        | kept d =>
          exact absurd ⟨a, h.1, textOf parts, htext⟩ (isCut_kept_iff.1 hothers).1
        | source b =>
          rw [isCut_source_iff] at hothers
          obtain ⟨rfl, hrest⟩ := h.1.eq_of_append_eq hothers.1 htext
          rw [ih h.2 hothers.2 hrest]

/-- Links are put into the attributes of the cut, and the rest is kept. -/
theorem relink_textOf (h : IsCut parts) (link : Text → Text) :
    relink link (textOf parts) = textOf (parts.map (Part.relinked link)) := by
  induction parts with
  | nil => exact relink_nil link
  | cons part parts ih =>
    rw [textOf_cons, List.map_cons, textOf_cons, ← ih h.tail]
    cases part with
    | kept c => exact relink_cons (isCut_kept_iff.1 h).1 link
    | source a => exact relink_append (isCut_source_iff.1 h).1 link _

/-! ## Before an attribute -/

theorem key_eq : key = ['s', 'r', 'c', '='] := rfl

/-- The key overlaps no other one, so the first key of a text is the one that none is before. -/
theorem not_isPrefix_append_key (hne : s ≠ []) (h : ¬key <:+: s) : ¬key <+: s ++ key ++ t := by
  intro hprefix
  rw [List.append_assoc] at hprefix
  by_cases hlength : key.length ≤ s.length
  · exact h (List.prefix_of_prefix_length_le hprefix (List.prefix_append ..) hlength).isInfix
  · rw [key_eq] at hprefix hlength
    match s, hne with
    | [x], _ => simp at hprefix
    | [x, y], _ => simp at hprefix
    | [x, y, z], _ => simp at hprefix
    | x :: y :: z :: w :: rest, _ => simp at hlength

theorem key_isPrefix_of_starts (h : Starts s) : key <+: s := by
  obtain ⟨a, -, ha⟩ := h
  exact (List.prefix_append ..).trans ha

/-- What is before the first key stays as it is. -/
theorem relink_append_key (h : ¬key <:+: s) (link : Text → Text) (t : Text) :
    relink link (s ++ key ++ t) = s ++ relink link (key ++ t) := by
  induction s with
  | nil => rfl
  | cons c s ih =>
    have hstarts : ¬Starts (c :: (s ++ key ++ t)) := fun hstarts =>
      not_isPrefix_append_key (List.cons_ne_nil c s) h (key_isPrefix_of_starts hstarts)
    rw [List.cons_append, List.cons_append, relink_cons hstarts,
      ih fun hkey => h (hkey.trans (List.infix_cons_iff.2 (.inr (List.infix_refl s)))),
      List.cons_append]

theorem relink_of_ne (h : c ≠ 's') (link : Text → Text) (s : Text) :
    relink link (c :: s) = c :: relink link s := by
  refine relink_cons (fun hstarts => ?_) link
  obtain ⟨rest, hrest⟩ := key_isPrefix_of_starts hstarts
  exact h (List.cons.inj hrest).1.symm

/-- What does not become an attribute after a key is read on from the quote. -/
theorem relink_key_of_not_starts (h : ¬Starts (key ++ quote :: s)) (hquote : isQuote quote = true)
    (link : Text → Text) :
    relink link (key ++ quote :: s) = key ++ quote :: relink link s := by
  have hquote : quote ≠ 's' := by
    rintro rfl
    cases hquote
  simp only [key_eq, List.cons_append, List.nil_append] at h ⊢
  rw [relink_cons h, relink_of_ne (by decide), relink_of_ne (by decide), relink_of_ne (by decide),
    relink_of_ne hquote]

end Marginalia.Image
