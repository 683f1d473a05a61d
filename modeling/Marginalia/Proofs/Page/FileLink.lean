import Marginalia.Encoding.Basic
import Marginalia.Proofs.Page.Url
import Marginalia.Proofs.Text.Basic

/-!
# The files that links lead to

A link to a file of a project is read back part by part: what comes before the first slash
after the path they all start with is the id of the project, and the rest is the path of the
file (`fileOf?`). Both are texts whose bytes in UTF-8 are escaped (`decode?_encode`). The file
that a link leads to is the one it was made for (`fileOf?_ofFile`), and so no two files have
the same link.
-/

namespace Marginalia.Url

variable {id path s : Text} {c : Char}

/-! ## Escaped texts -/

/-- The value of a hexadecimal digit, in capitals or small letters. -/
def hexValue? (c : Char) : Option Nat :=
  if '0' ≤ c ∧ c ≤ '9' then some (c.toNat - '0'.toNat)
  else if 'A' ≤ c ∧ c ≤ 'F' then some (c.toNat - 'A'.toNat + 10)
  else if 'a' ≤ c ∧ c ≤ 'f' then some (c.toNat - 'a'.toNat + 10)
  else none

/-- The byte that two hexadecimal digits spell. -/
def byte? (high low : Char) : Option UInt8 := do
  return UInt8.ofNat (16 * (← hexValue? high) + (← hexValue? low))

/-- The bytes that an escaped text stands for. A percent sign with two hexadecimal digits after
    it is a byte, and any other character is its bytes in UTF-8. -/
def unescape : Text → List UInt8
  | '%' :: high :: low :: rest =>
    match byte? high low with
    | some b => b :: unescape rest
    | none => String.utf8EncodeChar '%' ++ unescape (high :: low :: rest)
  | c :: rest => String.utf8EncodeChar c ++ unescape rest
  | [] => []

/-- The text that an escaped text stands for, if its bytes are one. -/
def decode? (s : Text) : Option Text := Encoding.decodeUtf8? (unescape s).toByteArray

theorem byte?_hexDigit (b : UInt8) :
    byte? (hexDigit (b.toNat / 16)) (hexDigit (b.toNat % 16)) = some b := by
  have hvalue : ∀ n < 16, hexValue? (hexDigit n) = some n := by decide
  have hsize : b.toNat < 256 := b.toNat_lt
  rw [byte?, hvalue _ (by omega), hvalue _ (by omega)]
  change some (UInt8.ofNat (16 * (b.toNat / 16) + b.toNat % 16)) = some b
  rw [Nat.div_add_mod, UInt8.ofNat_toNat]

theorem unescape_escapeByte (b : UInt8) (rest : Text) :
    unescape (escapeByte b ++ rest) = b :: unescape rest := by
  simp only [escapeByte, List.cons_append, List.nil_append, unescape, byte?_hexDigit]

theorem unescape_flatMap_escapeByte (bytes : List UInt8) (rest : Text) :
    unescape (bytes.flatMap escapeByte ++ rest) = bytes ++ unescape rest := by
  induction bytes with
  | nil => rfl
  | cons b bytes ih =>
    rw [List.flatMap_cons, List.append_assoc, unescape_escapeByte, ih, List.cons_append]

theorem unescape_cons_of_ne (h : c ≠ '%') (rest : Text) :
    unescape (c :: rest) = String.utf8EncodeChar c ++ unescape rest := by
  rw [unescape]
  rintro high low more hc -
  exact h hc

theorem unescape_encodeChar (c : Char) (rest : Text) :
    unescape (encodeChar c ++ rest) = String.utf8EncodeChar c ++ unescape rest := by
  rw [encodeChar]
  split
  · rename_i hself
    refine unescape_cons_of_ne ?_ rest
    rintro rfl
    exact absurd hself (by decide)
  · exact unescape_flatMap_escapeByte _ rest

theorem unescape_encode (s : Text) : unescape (encode s) = s.flatMap String.utf8EncodeChar := by
  induction s with
  | nil => rfl
  | cons c s ih => rw [encode, List.flatMap_cons, unescape_encodeChar, ← encode, ih, List.flatMap_cons]

/-- A text is read back from the text it is escaped to. -/
theorem decode?_encode (s : Text) : decode? (encode s) = some s := by
  have hvalid : ByteArray.IsValidUTF8 s.utf8Encode := ⟨s, rfl⟩
  rw [decode?, unescape_encode, ← List.utf8Encode, Encoding.decodeUtf8?, String.fromUTF8?,
    dif_pos hvalid]
  exact congrArg some String.toList_ofList

/-! ## What links are written with -/

/-- A text of letters, digits and the other characters that stand for themselves, and of bytes
    as percent signs and two hexadecimal digits in capitals. -/
inductive IsEscaped : Text → Prop
  | nil : IsEscaped []
  | plain {c : Char} {s : Text} (hc : c.isAlphanum = true ∨ c ∈ "_.-~/".toList)
      (hs : IsEscaped s) : IsEscaped (c :: s)
  | byte {high low : Char} {s : Text} (hhigh : high ∈ "0123456789ABCDEF".toList)
      (hlow : low ∈ "0123456789ABCDEF".toList) (hs : IsEscaped s) :
      IsEscaped ('%' :: high :: low :: s)

theorem IsEscaped.append {t : Text} (h : IsEscaped s) (ht : IsEscaped t) : IsEscaped (s ++ t) := by
  induction h with
  | nil => exact ht
  | plain hc _ ih => exact .plain hc ih
  | byte hhigh hlow _ ih => exact .byte hhigh hlow ih

theorem isUnreserved_iff : isUnreserved c = true ↔ c.isAlphanum = true ∨ c ∈ "_.-~/".toList := by
  simp [isUnreserved, or_assoc]

theorem isEscaped_flatMap {α : Type} {f : α → Text} (h : ∀ x, IsEscaped (f x)) (xs : List α) :
    IsEscaped (xs.flatMap f) := by
  induction xs with
  | nil => exact .nil
  | cons x xs ih => exact (h x).append ih

theorem isEscaped_escapeByte (b : UInt8) : IsEscaped (escapeByte b) := by
  have hdigit : ∀ n < 16, hexDigit n ∈ "0123456789ABCDEF".toList := by decide
  have hsize : b.toNat < 256 := b.toNat_lt
  exact .byte (hdigit _ (by omega)) (hdigit _ (by omega)) .nil

theorem isEscaped_encode (s : Text) : IsEscaped (encode s) := by
  refine isEscaped_flatMap (fun c => ?_) s
  rw [encodeChar]
  split
  · rename_i hself
    exact .plain (isUnreserved_iff.1 hself) .nil
  · exact isEscaped_flatMap isEscaped_escapeByte _

/-! ## The parts of a link -/

/-- The file of a project that a link leads to: the id of the project and the path. -/
def fileOf? (link : Text) : Option (Text × Text) := do
  let parts ← "/api/files/".toList.isPrefixOf? link
  let id ← decode? (parts.takeWhile (· != '/'))
  let path ← decode? (← (parts.dropWhile (· != '/')).tail?)
  return (id, path)

/-- A path that is taken from the directory of the project, as it stands: none from the root,
    with a scheme or with a step to that directory before it. -/
def IsServed (path : Text) : Prop :=
  ∀ start ∈ ["/", "http://", "https://", "./"], ¬start.toList <+: path

instance (path : Text) : Decidable (IsServed path) :=
  inferInstanceAs (Decidable (∀ start ∈ _, _))

theorem IsServed.isAbsolute_eq_false (h : IsServed path) : isAbsolute path = false := by
  rw [isAbsolute, Bool.eq_false_iff, ne_eq, Text.startsWithAny_eq_true_iff]
  rintro ⟨start, hstart, hprefix⟩
  rcases List.mem_cons.1 hstart with rfl | hstart
  · exact h "/" (by decide) hprefix
  · rcases List.mem_cons.1 hstart with rfl | hstart
    · exact h "http://" (by decide) hprefix
    · obtain rfl := List.mem_singleton.1 hstart
      exact h "https://" (by decide) hprefix

theorem IsServed.dropStart_eq (h : IsServed path) : Text.dropStart ['.', '/'] path = path := by
  rw [Text.dropStart]
  cases hstart : ['.', '/'].isPrefixOf? path with
  | none => rfl
  | some rest =>
    have hprefix : ['.', '/'] <+: path := ⟨rest, (Text.eq_append_of_isPrefixOf? hstart).symm⟩
    exact absurd hprefix (h "./" (by decide))

theorem IsServed.ofFile_eq (h : IsServed path) (id : Text) :
    ofFile id path = "/api/files/".toList ++ (encode id ++ '/' :: encode path) := by
  rw [ofFile, h.isAbsolute_eq_false, if_neg Bool.false_ne_true, relative, h.dropStart_eq]

/-- A slash stands for itself, and nothing else is written with one. -/
theorem slash_mem_encode_iff : '/' ∈ encode s ↔ '/' ∈ s := by
  rw [encode, List.mem_flatMap]
  constructor
  · rintro ⟨c, hc, hslash⟩
    rw [encodeChar] at hslash
    split at hslash
    · exact List.mem_singleton.1 hslash ▸ hc
    · obtain ⟨b, -, hb⟩ := List.mem_flatMap.1 hslash
      have hdigit : ∀ n < 16, '/' ≠ hexDigit n := by decide
      have hsize : b.toNat < 256 := b.toNat_lt
      rw [escapeByte, List.mem_cons, List.mem_cons, List.mem_singleton] at hb
      rcases hb with hb | hb | hb
      · cases hb
      · exact absurd hb (hdigit _ (by omega))
      · exact absurd hb (hdigit _ (by omega))
  · exact fun h => ⟨'/', h, List.mem_singleton_self '/'⟩

/-- The file a link leads to is the one it was made for. -/
theorem IsServed.fileOf?_ofFile (hpath : IsServed path) (hid : '/' ∉ id) :
    fileOf? (ofFile id path) = some (id, path) := by
  have hstart : "/api/files/".toList.isPrefixOf? (ofFile id path) =
      some (encode id ++ '/' :: encode path) := by
    rw [hpath.ofFile_eq]
    rfl
  have hplain : ∀ c ∈ encode id, (c != '/') = true := by
    intro c hc
    rw [bne_iff_ne]
    rintro rfl
    exact hid (slash_mem_encode_iff.1 hc)
  have hfirst : (encode id ++ '/' :: encode path).takeWhile (· != '/') = encode id := by
    rw [List.takeWhile_append_of_pos hplain]
    exact List.append_nil _
  have hsecond : (encode id ++ '/' :: encode path).dropWhile (· != '/') = '/' :: encode path := by
    rw [List.dropWhile_append_of_pos hplain]
    rfl
  simp only [fileOf?, hstart, hfirst, hsecond, List.tail?_cons, decode?_encode, bind, pure,
    Option.bind_some]

/-- Every file of a project has a link of its own, which leads back to it and is written with
    nothing but what a link may hold. -/
theorem links_lead_to_their_files (hid : '/' ∉ id) (hpath : IsServed path) :
    "/api/files/".toList <+: ofFile id path ∧ IsEscaped (ofFile id path) ∧
      fileOf? (ofFile id path) = some (id, path) ∧
      ∀ id' path', '/' ∉ id' → IsServed path' → ofFile id' path' = ofFile id path →
        id' = id ∧ path' = path := by
  have hback := hpath.fileOf?_ofFile hid
  refine ⟨?_, ?_, hback, ?_⟩
  · rw [hpath.ofFile_eq]
    exact List.prefix_append ..
  · have hstart : encode "/api/files/".toList = "/api/files/".toList := by decide
    rw [hpath.ofFile_eq, ← hstart]
    exact (isEscaped_encode _).append
      ((isEscaped_encode id).append (.plain (.inr (by decide)) (isEscaped_encode path)))
  · intro id' path' hid' hpath' hlink
    rw [← hlink, hpath'.fileOf?_ofFile hid'] at hback
    exact Prod.mk.inj (Option.some.inj hback)

/-- The id holds a percent sign and a letter of two bytes, the path the escape of a slash, a
    space and two slashes at its end. -/
theorem links_lead_to_their_files_awkward :
    '/' ∉ "100%é".toList ∧ IsServed "a%2Fb c//".toList ∧
      "/api/files/".toList <+: ofFile "100%é".toList "a%2Fb c//".toList ∧
      IsEscaped (ofFile "100%é".toList "a%2Fb c//".toList) ∧
      fileOf? (ofFile "100%é".toList "a%2Fb c//".toList) =
        some ("100%é".toList, "a%2Fb c//".toList) ∧
      ∀ id path, '/' ∉ id → IsServed path →
        ofFile id path = ofFile "100%é".toList "a%2Fb c//".toList →
        id = "100%é".toList ∧ path = "a%2Fb c//".toList :=
  have hid : '/' ∉ "100%é".toList := by decide
  have hpath : IsServed "a%2Fb c//".toList := by decide
  ⟨hid, hpath, links_lead_to_their_files hid hpath⟩

example : ofFile "100%é".toList "a%2Fb c//".toList =
    "/api/files/100%25%C3%A9/a%252Fb%20c//".toList := by decide

end Marginalia.Url
