import Marginalia.Page.Url
import Marginalia.Proofs.Text.Basic

/-!
# What links are made of

A part of a link is made of the characters that stand for themselves and of percent signs
with hexadecimal digits (`isUnreserved_of_mem_encode`). If the image server has a link of
the web, the link to an image is one of its own (`isAbsolute_ofImage`), and so it is the
link to itself (`ofImage_ofImage`).
-/

namespace Marginalia.Url

variable {settings : Settings} {limits : Limits} {id path s : Text} {c : Char}

theorem isUnreserved_hexDigit : ∀ n < 16, isUnreserved (hexDigit n) = true := by decide

theorem isUnreserved_of_mem_escapeByte {b : UInt8} (h : c ∈ escapeByte b) :
    isUnreserved c = true ∨ c = '%' := by
  have hsize : b.toNat < 256 := b.toNat_lt
  rw [escapeByte, List.mem_cons, List.mem_cons, List.mem_singleton] at h
  rcases h with rfl | rfl | rfl
  · exact .inr rfl
  · exact .inl (isUnreserved_hexDigit _ (by omega))
  · exact .inl (isUnreserved_hexDigit _ (by omega))

/-- A text as part of a link holds nothing that does not stand for itself but escapes. -/
theorem isUnreserved_of_mem_encode (h : c ∈ encode s) : isUnreserved c = true ∨ c = '%' := by
  obtain ⟨d, -, hd⟩ := List.mem_flatMap.1 h
  rw [encodeChar] at hd
  split at hd
  · rename_i hself
    exact .inl (List.mem_singleton.1 hd ▸ hself)
  · obtain ⟨b, -, hb⟩ := List.mem_flatMap.1 hd
    exact isUnreserved_of_mem_escapeByte hb

theorem isUnreserved_of_mem_relative (h : c ∈ relative id path) :
    isUnreserved c = true ∨ c = '%' := by
  rw [relative, List.mem_append, List.mem_cons] at h
  rcases h with h | rfl | h
  · exact isUnreserved_of_mem_encode h
  · exact .inl rfl
  · exact isUnreserved_of_mem_encode h

/-- What the link to an image holds. -/
theorem mem_ofImage (h : c ∈ ofImage settings limits id path) :
    c ∈ path ∨ c ∈ settings.imageUrl ∨ c ∈ limits.query ∨ isUnreserved c = true ∨ c = '%' := by
  rw [ofImage, ofFile] at h
  split at h
  · split at h
    · exact .inl h
    · rw [List.mem_append] at h
      rcases h with h | h
      · have hplain : "/api/files/".toList.all isUnreserved = true := by decide
        exact .inr (.inr (.inr (.inl (List.all_eq_true.1 hplain c h))))
      · exact .inr (.inr (.inr (isUnreserved_of_mem_relative h)))
  · rw [List.mem_append, List.mem_append, List.mem_cons] at h
    rcases h with (h | rfl | h) | h
    · exact .inr (.inl h)
    · exact .inr (.inr (.inr (.inl rfl)))
    · exact .inr (.inr (.inr (isUnreserved_of_mem_relative h)))
    · exact .inr (.inr (.inl h))

/-! ## Links of their own -/

theorem ofImage_of_isAbsolute (h : isAbsolute path = true) (settings : Settings) (limits : Limits)
    (id : Text) : ofImage settings limits id path = path := by
  rw [ofImage, ofFile, h, Bool.true_or, if_pos rfl, if_pos rfl]

theorem isAbsolute_of_scheme (h : Text.startsWithAny Settings.schemes path = true) :
    isAbsolute path = true := by
  rw [isAbsolute, Text.startsWithAny, List.any_cons]
  exact Bool.or_eq_true_iff.2 (.inr h)

theorem isAbsolute_ofImage (h : Text.startsWithAny Settings.schemes settings.imageUrl = true)
    (limits : Limits) (id path : Text) : isAbsolute (ofImage settings limits id path) = true := by
  rw [ofImage, ofFile]
  split
  · split
    · assumption
    · rfl
  · rw [List.append_assoc]
    exact isAbsolute_of_scheme (Text.startsWithAny_append h _)

/-- The link to an image is the link to itself. -/
theorem ofImage_ofImage (h : Text.startsWithAny Settings.schemes settings.imageUrl = true)
    (limits : Limits) (id path : Text) :
    ofImage settings limits id (ofImage settings limits id path) = ofImage settings limits id path :=
  ofImage_of_isAbsolute (isAbsolute_ofImage h limits id path) settings limits id

end Marginalia.Url
