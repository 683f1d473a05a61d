import Marginalia.Json.Basic

/-!
# Which values can be written

A value can be written with all characters as they are exactly if no text in it
holds half a surrogate pair: it is *whole* (`write?_ne_none_iff`).
-/

namespace Marginalia

namespace LooseText

/-- A loose text without half a surrogate pair in it. -/
def IsWhole (s : LooseText) : Prop := ∀ unit, Symbol.half unit ∉ s

variable {s t : LooseText}

@[simp] theorem isWhole_nil : IsWhole [] := fun _ => List.not_mem_nil

@[simp] theorem isWhole_append : IsWhole (s ++ t) ↔ s.IsWhole ∧ t.IsWhole := by
  simp only [IsWhole, List.mem_append, not_or, forall_and]

@[simp] theorem isWhole_ofText (text : Text) : (ofText text).IsWhole := by
  intro unit h
  obtain ⟨c, -, hc⟩ := List.mem_map.1 h
  cases hc

theorem text?_ne_none_iff : s.text? ≠ none ↔ s.IsWhole := by
  constructor
  · intro h
    obtain ⟨text, htext⟩ := Option.ne_none_iff_exists'.1 h
    exact eq_ofText_of_text? htext ▸ isWhole_ofText text
  · intro h
    induction s with
    | nil => exact Option.some_ne_none _
    | cons symbol rest ih =>
      cases symbol with
      | half unit => exact absurd List.mem_cons_self (h unit)
      | char c =>
        have hrest := ih fun unit hunit => h unit (List.mem_cons_of_mem _ hunit)
        rw [text?, Ne, Option.map_eq_none_iff]
        exact hrest

end LooseText

namespace Json

open LooseText

mutual

/-- No text in the value holds half a surrogate pair. -/
def IsWhole : Json → Prop
  | null | bool _ | number _ => True
  | text t => t.IsWhole
  | array items => AreWhole items
  | object fields => FieldsAreWhole fields

/-- The items are whole. -/
def AreWhole : List Json → Prop
  | [] => True
  | item :: items => item.IsWhole ∧ AreWhole items

/-- The fields are whole, with their names. -/
def FieldsAreWhole : List (LooseText × Json) → Prop
  | [] => True
  | (name, value) :: fields => name.IsWhole ∧ value.IsWhole ∧ FieldsAreWhole fields

end

/-! ## Writing -/

@[simp] theorem isWhole_signs (s : String) : (signs s).IsWhole := isWhole_ofText _

@[simp] theorem isWhole_newline (level : Nat) : (newline level).IsWhole := isWhole_ofText _

theorem isWhole_writeSymbols (t : LooseText) :
    LooseText.IsWhole (t.flatMap writeSymbol) ↔ t.IsWhole := by
  refine forall_congr' fun unit => not_congr ?_
  rw [List.mem_flatMap]
  constructor
  · rintro ⟨symbol, hsymbol, h⟩
    cases symbol with
    | char c => exact absurd h (isWhole_ofText (writeChar c) unit)
    | half unit' => exact List.mem_singleton.1 h ▸ hsymbol
  · exact fun h => ⟨.half unit, h, List.mem_singleton_self _⟩

@[simp] theorem isWhole_writeText (t : LooseText) : (writeText t).IsWhole ↔ t.IsWhole := by
  simp only [writeText, isWhole_append, isWhole_signs, isWhole_writeSymbols, true_and, and_true]

mutual

/-- What is written of a value holds the halves that the value holds. -/
theorem isWhole_writeAt (level : Nat) (json : Json) :
    (writeAt level json).IsWhole ↔ json.IsWhole := by
  match json with
  | null => simp [writeAt, Json.IsWhole]
  | bool true => simp [writeAt, Json.IsWhole]
  | bool false => simp [writeAt, Json.IsWhole]
  | number spelling => simp [writeAt, Json.IsWhole]
  | text t => simp [writeAt, Json.IsWhole]
  | array [] => simp [writeAt, Json.IsWhole, AreWhole]
  | array (item :: items) =>
    simp [writeAt, Json.IsWhole, AreWhole, isWhole_writeAt (level + 1) item,
      isWhole_writeItems (level + 1) items]
  | object [] => simp [writeAt, Json.IsWhole, FieldsAreWhole]
  | object ((name, value) :: fields) =>
    simp [writeAt, Json.IsWhole, FieldsAreWhole, isWhole_writeAt (level + 1) value,
      isWhole_writeFields (level + 1) fields]

theorem isWhole_writeItems (level : Nat) (items : List Json) :
    (writeItems level items).IsWhole ↔ AreWhole items := by
  match items with
  | [] => simp [writeItems, AreWhole]
  | item :: items =>
    simp [writeItems, AreWhole, isWhole_writeAt level item, isWhole_writeItems level items]

theorem isWhole_writeFields (level : Nat) (fields : List (LooseText × Json)) :
    (writeFields level fields).IsWhole ↔ FieldsAreWhole fields := by
  match fields with
  | [] => simp [writeFields, FieldsAreWhole]
  | (name, value) :: fields =>
    simp [writeFields, FieldsAreWhole, isWhole_writeAt level value,
      isWhole_writeFields level fields]

end

/-- What can be written is what is whole. -/
theorem write?_ne_none_iff {json : Json} : json.write? ≠ none ↔ json.IsWhole := by
  rw [write?, text?_ne_none_iff, isWhole_writeAt]

/-! ## Parts of records -/

@[simp] theorem isWhole_array {items : List Json} :
    (array items).IsWhole ↔ ∀ item ∈ items, item.IsWhole := by
  rw [Json.IsWhole]
  induction items with
  | nil => simp [AreWhole]
  | cons item items ih => rw [AreWhole, ih, List.forall_mem_cons]

@[simp] theorem isWhole_ofFields {fields : List (String × Json)} :
    (ofFields fields).IsWhole ↔ ∀ field ∈ fields, field.2.IsWhole := by
  rw [ofFields, Json.IsWhole]
  induction fields with
  | nil => simp [FieldsAreWhole]
  | cons field fields ih => simp [FieldsAreWhole, ih]

@[simp] theorem isWhole_text {t : LooseText} : (Json.text t).IsWhole ↔ t.IsWhole := by
  rw [Json.IsWhole]

@[simp] theorem isWhole_bool (value : Bool) : (Json.bool value).IsWhole := by
  rw [Json.IsWhole]
  trivial

@[simp] theorem isWhole_ofInt (n : Int) : (ofInt n).IsWhole := by
  rw [ofInt, Json.IsWhole]
  trivial

@[simp] theorem isWhole_ofNat (n : Nat) : (ofNat n).IsWhole := by
  rw [ofNat, Json.IsWhole]
  trivial

@[simp] theorem isWhole_ofInt? (n : Option Int) : (ofInt? n).IsWhole := by
  cases n with
  | none => simp [ofInt?, Json.IsWhole]
  | some n => exact isWhole_ofInt n

@[simp] theorem isWhole_ofJsonText (t : Text) : (Json.ofText t).IsWhole := by
  rw [Json.ofText, isWhole_text]
  exact isWhole_ofText t

@[simp] theorem isWhole_ofText? (t : Option Text) : (ofText? t).IsWhole := by
  cases t with
  | none => simp [ofText?, Json.IsWhole]
  | some t => exact isWhole_ofJsonText t

@[simp] theorem isWhole_ofLoose? {t : Option LooseText} :
    (ofLoose? t).IsWhole ↔ ∀ s ∈ t, s.IsWhole := by
  cases t with
  | none => simp [ofLoose?, Json.IsWhole]
  | some t => simp [ofLoose?]

end Json

end Marginalia
