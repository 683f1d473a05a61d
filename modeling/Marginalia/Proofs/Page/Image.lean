import Marginalia.Proofs.Page.Attribute
import Marginalia.Proofs.Page.Url

/-!
# Images as the site serves them

Two texts with the same cut but for the values of their attributes agree up to a quote
(`textOf_relinked`), and no attribute that reaches further starts in what they agree on
(`Attribute.IsWellFormed.starts_concat`). So a text keeps its cut when links are put into
its attributes (`IsCut.map_relinked`).

* `quoted_source_is_served`: what becomes of a value in quotes that match;
* `serving_is_stable`: serving changes the attributes of a text alone, and nothing the
  second time.
-/

namespace Marginalia.Image

open Settings (schemes)

variable {settings : Settings} {a : Attribute} {c quote : Char} {link : Text → Text} {s t : Text}
  {parts : List Part}

/-! ## A value in quotes -/

theorem isValue_iff : isValue c = true ↔ isQuote c = false ∧ c ≠ '>' := by
  rw [isValue, Bool.and_eq_true, Bool.not_eq_true', bne_iff_ne]

/-- A value without quotes is put in its place as a whole. -/
theorem relink_quoted {value : Text} (hquote : isQuote quote = true) (hne : value ≠ [])
    (hvalue : ∀ c ∈ value, isValue c = true) {closing : Char} (hclosing : isQuote closing = true)
    (link : Text → Text) (after : Text) :
    relink link (key ++ quote :: (value ++ closing :: after)) =
      key ++ '"' :: (link value ++ '"' :: relink link after) := by
  have h := relink_append (a := ⟨quote, value, closing⟩) ⟨hquote, hclosing, hne, hvalue⟩ link after
  simpa only [Attribute.text, Attribute.ofLink, List.append_assoc, List.cons_append,
    List.nil_append] using h

theorem not_starts_of_not_isValue (h : isValue c = false) : ¬Starts (key ++ quote :: c :: s) := by
  rintro ⟨⟨opening, value, closing⟩, ⟨-, -, hne, hvalue⟩, after, hafter⟩
  obtain ⟨first, more, rfl⟩ := List.exists_cons_of_ne_nil hne
  simp only [Attribute.text, List.append_assoc, List.cons_append, List.append_cancel_left_eq,
    List.cons.injEq] at hafter
  obtain ⟨-, rfl, -⟩ := hafter
  rw [hvalue first List.mem_cons_self] at h
  cases h

/-- A value in quotes, after the first key of a text, is put in its place as a whole if it holds
    no quote of either kind. Otherwise it is cut at the first one: what comes before is taken
    for the value, and what comes after is read on. If nothing comes before, the attribute
    stays as it is. -/
theorem quoted_source_is_served {id before value after : Text} (hbefore : ¬key <:+: before)
    (hquote : isQuote quote = true) (hne : value ≠ []) (hbracket : '>' ∉ value) :
    ((∀ c ∈ value, isQuote c = false) →
      serve settings id (before ++ key ++ quote :: (value ++ quote :: after)) =
        before ++ key ++ '"' :: (Url.ofImage settings ⟨some 700, none⟩ id value ++
          '"' :: serve settings id after)) ∧
    ∀ start other rest, value = start ++ other :: rest → (∀ c ∈ start, isQuote c = false) →
      isQuote other = true →
      serve settings id (before ++ key ++ quote :: (value ++ quote :: after)) =
        before ++ key ++ if start = [] then quote :: serve settings id (value ++ quote :: after)
          else '"' :: (Url.ofImage settings ⟨some 700, none⟩ id start ++
            '"' :: serve settings id (rest ++ quote :: after)) := by
  have hvalue : ∀ part ⊆ value, (∀ c ∈ part, isQuote c = false) → ∀ c ∈ part, isValue c = true :=
    fun part hpart hquotes c hc =>
      isValue_iff.2 ⟨hquotes c hc, fun hbracket' => hbracket (hbracket' ▸ hpart hc)⟩
  simp only [serve]
  constructor
  · intro hquotes
    rw [relink_append_key hbefore, relink_quoted hquote hne
      (hvalue value (List.Subset.refl _) hquotes) hquote, List.append_assoc before key]
    rfl
  · rintro start other rest rfl hquotes hother
    rw [relink_append_key hbefore, List.append_assoc before key]
    split
    · rename_i hstart
      subst hstart
      rw [List.nil_append, List.cons_append, relink_key_of_not_starts _ hquote]
      exact not_starts_of_not_isValue (Bool.eq_false_iff.2 (isValue_of_isQuote hother))
    · rename_i hstart
      rw [List.append_assoc, List.cons_append, relink_quoted hquote hstart
        (hvalue start (List.subset_append_left ..) hquotes) hother]
      rfl

theorem quoted_source_is_served_photo :
    ¬key <:+: "<p>src</p><img ".toList ∧ isQuote '\'' = true ∧ "my photo.png".toList ≠ [] ∧
      '>' ∉ "my photo.png".toList ∧ (∀ c ∈ "my photo.png".toList, isQuote c = false) ∧
      serve Settings.standard "clock".toList
          ("<p>src</p><img ".toList ++ key ++ '\'' :: ("my photo.png".toList ++
            '\'' :: " alt=\"it's\">".toList)) =
        "<p>src</p><img ".toList ++ key ++ '"' ::
          (Url.ofImage Settings.standard ⟨some 700, none⟩ "clock".toList "my photo.png".toList ++
            '"' :: serve Settings.standard "clock".toList " alt=\"it's\">".toList) ∧
      Url.ofImage Settings.standard ⟨some 700, none⟩ "clock".toList "my photo.png".toList =
        "/api/files/clock/my%20photo.png".toList :=
  have hbefore : ¬key <:+: "<p>src</p><img ".toList := by decide +kernel
  have hquote : isQuote '\'' = true := by decide
  have hne : "my photo.png".toList ≠ [] := by decide
  have hbracket : '>' ∉ "my photo.png".toList := by decide
  have hvalue : "my photo.png".toList.all isValue = true := by decide
  have hquotes : ∀ c ∈ "my photo.png".toList, isQuote c = false :=
    fun c hc => (isValue_iff.1 (List.all_eq_true.1 hvalue c hc)).1
  ⟨hbefore, hquote, hne, hbracket, hquotes,
    (quoted_source_is_served hbefore hquote hne hbracket).1 hquotes, by decide +kernel⟩

/-- An apostrophe in a value in double quotes cuts it short. -/
theorem apostrophe_cuts_source :
    ¬key <:+: "<img ".toList ∧ '"' ∉ "it's.png".toList ∧ '>' ∉ "it's.png".toList ∧
      serve Settings.standard "p".toList
          ("<img ".toList ++ key ++ '"' :: ("it's.png".toList ++ '"' :: ">".toList)) ≠
        "<img ".toList ++ key ++
          '"' :: (Url.ofImage Settings.standard ⟨some 700, none⟩ "p".toList "it's.png".toList ++
            '"' :: serve Settings.standard "p".toList ">".toList) :=
  ⟨by decide, by decide, by decide, by decide +kernel⟩

/-! ## The cut of a served text -/

theorem textOf_relinked (h : IsCut parts) (link : Text → Text) :
    textOf (parts.map (Part.relinked link)) = textOf parts ∨
      ∃ start quote quote' rest rest', isQuote quote = true ∧ isQuote quote' = true ∧
        textOf parts = start ++ key ++ quote :: rest ∧
        textOf (parts.map (Part.relinked link)) = start ++ key ++ quote' :: rest' := by
  induction parts with
  | nil => exact .inl rfl
  | cons part parts ih =>
    rw [List.map_cons, textOf_cons, textOf_cons]
    cases part with
    | kept c =>
      rcases ih h.tail with hsame | ⟨start, quote, quote', rest, rest', hquote, hquote', hold, hnew⟩
      · exact .inl (congrArg (c :: ·) hsame)
      · exact .inr ⟨c :: start, quote, quote', rest, rest', hquote, hquote',
          congrArg (c :: ·) hold, congrArg (c :: ·) hnew⟩
    | source a =>
      refine .inr ⟨[], a.opening, '"', a.value ++ [a.closing] ++ textOf parts,
        link a.value ++ ['"'] ++ textOf (parts.map (Part.relinked link)),
        (isCut_source_iff.1 h).1.opening, rfl, ?_, ?_⟩ <;> exact List.append_assoc key _ _

theorem Starts.append (h : Starts s) (t : Text) : Starts (s ++ t) := by
  obtain ⟨a, ha, hprefix⟩ := h
  exact ⟨a, ha, hprefix.trans (List.prefix_append ..)⟩

/-- The quotes of an attribute are after the key and at its end. So an attribute that has a
    quote after more than a key ends with it, and another one may stand in its place. -/
theorem Attribute.IsWellFormed.starts_concat {quote' : Char} (ha : a.IsWellFormed)
    (hquote : isQuote quote = true) (hquote' : isQuote quote' = true)
    (hlength : key.length < s.length) (h : a.text <+: s ++ quote' :: t) : Starts (s ++ [quote]) := by
  have htext : a.text = (key ++ a.opening :: a.value) ++ [a.closing] := by
    rw [text, List.append_assoc, List.cons_append]
  by_cases hle : a.text.length ≤ s.length
  · have hprefix := List.prefix_of_prefix_length_le h (List.prefix_append ..) hle
    exact Starts.append ⟨a, ha, hprefix⟩ [quote]
  · have hends : s ++ [quote'] <+: a.text := by
      refine List.prefix_of_prefix_length_le ⟨t, List.append_assoc ..⟩ h ?_
      rw [List.length_append, List.length_singleton]
      omega
    rw [htext] at hends
    rcases List.prefix_concat_iff.1 hends with hends | hinside
    · obtain rfl := List.append_inj_left' hends rfl
      refine ⟨⟨a.opening, a.value, quote⟩, ⟨ha.opening, hquote, ha.value_ne_nil, ha.value⟩, ?_⟩
      rw [List.append_assoc, List.cons_append]
      exact List.prefix_refl _
    -- There is no quote in the value.
    · obtain ⟨rest, hrest⟩ := hinside
      obtain ⟨n, hn⟩ := Nat.exists_eq_add_of_lt hlength
      have hat : (key ++ a.opening :: a.value)[s.length]? = some quote' := by
        rw [← hrest, List.append_assoc, List.getElem?_append_right (Nat.le_refl _), Nat.sub_self]
        rfl
      rw [hn, Nat.add_assoc, List.getElem?_append_right (Nat.le_add_right ..),
        Nat.add_sub_cancel_left, List.getElem?_cons_succ] at hat
      exact absurd (ha.value _ (List.mem_of_getElem? hat)) (isValue_of_isQuote hquote')

/-- A text keeps its cut when links without quotes are put into its attributes. -/
theorem IsCut.map_relinked (h : IsCut parts)
    (hlink : ∀ a, .source a ∈ parts → (Attribute.ofLink (link a.value)).IsWellFormed) :
    IsCut (parts.map (Part.relinked link)) := by
  induction parts with
  | nil => exact isCut_nil
  | cons part parts ih =>
    have ih := ih h.tail fun a ha => hlink a (List.mem_cons_of_mem _ ha)
    rw [List.map_cons]
    cases part with
    | source a => exact isCut_source_iff.2 ⟨hlink a List.mem_cons_self, ih⟩
    | kept c =>
      refine isCut_kept_iff.2 ⟨fun ⟨a, ha, hprefix⟩ => (isCut_kept_iff.1 h).1 ?_, ih⟩
      rcases textOf_relinked h.tail link with
        hsame | ⟨start, quote, quote', rest, rest', hquote, hquote', hold, hnew⟩
      · exact ⟨a, ha, hsame ▸ hprefix⟩
      · rw [hnew] at hprefix
        have hstarts := ha.starts_concat (s := c :: (start ++ key)) hquote hquote'
          (by rw [List.length_cons, List.length_append]; omega) hprefix
        rw [hold, List.append_cons]
        exact hstarts.append rest

/-! ## Served texts -/

theorem Part.relinked_relinked (hlink : ∀ value, link (link value) = link value) (part : Part) :
    (part.relinked link).relinked link = part.relinked link := by
  cases part with
  | kept c => rfl
  | source a => exact congrArg (source ∘ Attribute.ofLink) (hlink a.value)

theorem isValue_of_isUnreserved (h : Url.isUnreserved c = true) : isValue c = true := by
  by_contra hvalue
  rw [isValue, Bool.and_eq_true, Bool.not_eq_true', bne_iff_ne, not_and_or, Bool.not_eq_false,
    not_not, isQuote, Bool.or_eq_true, beq_iff_eq, beq_iff_eq] at hvalue
  rcases hvalue with (rfl | rfl) | rfl <;> cases h

/-- The link to an image may stand in an attribute. -/
theorem isWellFormed_ofImage (hscheme : Text.startsWithAny schemes settings.imageUrl = true)
    (hplain : ∀ c ∈ settings.imageUrl, isValue c = true) {id value : Text}
    (hvalue : ∀ c ∈ value, isValue c = true) :
    (Attribute.ofLink (Url.ofImage settings ⟨some 700, none⟩ id value)).IsWellFormed := by
  have hquery : (Url.Limits.query ⟨some 700, none⟩).all isValue = true := by decide +kernel
  refine ⟨rfl, rfl, fun hnil => ?_, fun c hc => ?_⟩
  · have habsolute := Url.isAbsolute_ofImage hscheme ⟨some 700, none⟩ id value
    rw [show Url.ofImage settings ⟨some 700, none⟩ id value = [] from hnil] at habsolute
    cases habsolute
  · rcases Url.mem_ofImage hc with hc | hc | hc | hc | rfl
    · exact hvalue c hc
    · exact hplain c hc
    · exact List.all_eq_true.1 hquery c hc
    · exact isValue_of_isUnreserved hc
    · rfl

/-- If the link to the image server is one of the web, and could stand in an attribute, then
    serving a text changes its attributes alone: each has a link in place of its value, and all
    else is kept. The served text is cut in the same places, so that serving it again changes
    nothing. -/
theorem serving_is_stable (hscheme : Text.startsWithAny schemes settings.imageUrl = true)
    (hplain : ∀ c ∈ settings.imageUrl, isQuote c = false ∧ c ≠ '>') (id markdown : Text) :
    serve settings id (serve settings id markdown) = serve settings id markdown ∧
      ∃ parts, (∀ other, IsCut other ∧ textOf other = markdown ↔ other = parts) ∧
        serve settings id markdown =
          textOf (parts.map (Part.relinked (Url.ofImage settings ⟨some 700, none⟩ id))) ∧
        IsCut (parts.map (Part.relinked (Url.ofImage settings ⟨some 700, none⟩ id))) := by
  obtain ⟨parts, hcut, rfl⟩ := exists_isCut markdown
  have hlinks : ∀ a, .source a ∈ parts →
      (Attribute.ofLink (Url.ofImage settings ⟨some 700, none⟩ id a.value)).IsWellFormed :=
    fun a ha => isWellFormed_ofImage hscheme (fun c hc => isValue_iff.2 (hplain c hc))
      (hcut.isWellFormed a ha).value
  have hserved := relink_textOf hcut (Url.ofImage settings ⟨some 700, none⟩ id)
  have hcut' := hcut.map_relinked hlinks
  refine ⟨?_, parts, fun other => ⟨fun h => ?_, ?_⟩, hserved, hcut'⟩
  · have hsame : (parts.map (Part.relinked (Url.ofImage settings ⟨some 700, none⟩ id))).map
        (Part.relinked (Url.ofImage settings ⟨some 700, none⟩ id)) =
        parts.map (Part.relinked (Url.ofImage settings ⟨some 700, none⟩ id)) := by
      rw [List.map_map]
      exact List.map_congr_left fun part _ =>
        Part.relinked_relinked (Url.ofImage_ofImage hscheme ⟨some 700, none⟩ id) part
    calc serve settings id (serve settings id (textOf parts))
        = serve settings id (textOf (parts.map (Part.relinked _))) := congrArg _ hserved
      _ = textOf ((parts.map (Part.relinked _)).map (Part.relinked _)) := relink_textOf hcut' _
      _ = textOf (parts.map (Part.relinked _)) := congrArg _ hsame
      _ = serve settings id (textOf parts) := hserved.symm
  · exact (hcut.eq_of_textOf_eq h.1 h.2.symm).symm
  · rintro rfl
    exact ⟨hcut, rfl⟩

/-- The settings of a site for its readers. -/
def published : Settings := { Settings.standard with environment := Settings.production }

theorem serving_is_stable_published :
    Text.startsWithAny schemes published.imageUrl = true ∧
      (∀ c ∈ published.imageUrl, isQuote c = false ∧ c ≠ '>') ∧
      serve published "clock".toList "<p src=\"1>0\" src='a b.png'>".toList =
        "<p src=\"1>0\" src=\"https://ik.imagekit.io/tlnjt5rshw/clock/a%20b.png?tr=w-700\">".toList ∧
      serve published "clock".toList
          (serve published "clock".toList "<p src=\"1>0\" src='a b.png'>".toList) =
        serve published "clock".toList "<p src=\"1>0\" src='a b.png'>".toList :=
  have hscheme : Text.startsWithAny schemes published.imageUrl = true := by decide +kernel
  have hvalue : published.imageUrl.all isValue = true := by decide +kernel
  have hplain : ∀ c ∈ published.imageUrl, isQuote c = false ∧ c ≠ '>' :=
    fun c hc => isValue_iff.1 (List.all_eq_true.1 hvalue c hc)
  ⟨hscheme, hplain, by decide +kernel, (serving_is_stable hscheme hplain _ _).1⟩

end Marginalia.Image
