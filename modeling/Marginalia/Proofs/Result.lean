import Mathlib.Data.List.Forall2

/-!
# Steps that may fail

What the answer of a few steps, each of which may fail, says about each step.

Steps that keep to a limit do what they would do without one, or else fail because of
the limit (`AgreesUnless`). So do the steps they are put together to.
-/

namespace Marginalia

variable {ε ε' α β : Type}

theorem bind_eq_ok {x : Except ε α} {f : α → Except ε β} {b : β} :
    (x >>= f) = .ok b ↔ ∃ a, x = .ok a ∧ f a = .ok b := by
  cases x <;> simp [bind, Except.bind]

theorem ok_bind (a : α) (f : α → Except ε β) : (.ok a >>= f) = f a := rfl

theorem map_eq_ok {x : Except ε α} {f : α → β} {b : β} :
    (f <$> x) = .ok b ↔ ∃ a, x = .ok a ∧ f a = b := by
  cases x <;> simp [Functor.map, Except.map]

theorem map_eq_error {x : Except ε α} {f : α → β} {e : ε} :
    (f <$> x) = .error e ↔ x = .error e := by
  cases x <;> simp [Functor.map, Except.map]

theorem mapError_eq_ok {x : Except ε α} {f : ε → ε'} {a : α} :
    x.mapError f = .ok a ↔ x = .ok a := by
  cases x <;> constructor <;> intro h <;> cases h <;> rfl

theorem mapError_eq_error {x : Except ε α} {f : ε → ε'} {e : ε'} :
    x.mapError f = .error e ↔ ∃ e', x = .error e' ∧ f e' = e := by
  cases x <;> simp [Except.mapError]

theorem bind_eq_error {x : Except ε α} {f : α → Except ε β} {e : ε} :
    (x >>= f) = .error e ↔ x = .error e ∨ ∃ a, x = .ok a ∧ f a = .error e := by
  cases x <;> simp [bind, Except.bind]

theorem toOption_eq_some {x : Except ε α} {a : α} : x.toOption = some a ↔ x = .ok a := by
  cases x <;> simp [Except.toOption]

theorem eq_ok_of_isSome_toOption {x : Except ε α} (h : x.toOption.isSome = true) (a : α) :
    x = .ok (x.toOption.getD a) := by
  cases x with
  | error e => cases h
  | ok a' => rfl

/-- Steps that each succeed, with an answer that has its question in it, succeed
    together. -/
theorem exists_mapM_eq_ok {f : α → Except ε β} {g : β → α} {P : β → Prop} {as : List α}
    (h : ∀ a ∈ as, ∃ b, f a = .ok b ∧ g b = a ∧ P b) :
    ∃ bs, as.mapM f = .ok bs ∧ bs.map g = as ∧ ∀ b ∈ bs, P b := by
  induction as with
  | nil => exact ⟨[], rfl, rfl, fun b hb => absurd hb List.not_mem_nil⟩
  | cons a as ih =>
    obtain ⟨b, hb, hg, hP⟩ := h a List.mem_cons_self
    obtain ⟨bs, hbs, hgs, hPs⟩ := ih fun a ha => h a (List.mem_cons_of_mem _ ha)
    refine ⟨b :: bs, ?_, by rw [List.map_cons, hg, hgs], List.forall_mem_cons.2 ⟨hP, hPs⟩⟩
    rw [List.mapM_cons, hb, hbs]
    rfl

/-! ## The same step for each item of a list -/

section Each

variable {f g : α → Except ε β} {as : List α} {bs : List β}

/-- Steps succeed together if each does. -/
theorem mapM_eq_ok_iff : as.mapM f = .ok bs ↔ List.Forall₂ (fun a b => f a = .ok b) as bs := by
  induction as generalizing bs with
  | nil =>
    rw [List.forall₂_nil_left_iff]
    exact ⟨fun h => (Except.ok.inj h).symm, fun h => h ▸ rfl⟩
  | cons a as ih =>
    rw [List.mapM_cons, bind_eq_ok, List.forall₂_cons_left_iff]
    refine exists_congr fun b => ?_
    constructor
    · rintro ⟨hb, h⟩
      obtain ⟨bs', hbs', h⟩ := bind_eq_ok.1 h
      exact ⟨bs', hb, ih.1 hbs', (Except.ok.inj h).symm⟩
    · rintro ⟨bs', hb, hbs', rfl⟩
      exact ⟨hb, bind_eq_ok.2 ⟨bs', ih.2 hbs', rfl⟩⟩

/-- Steps succeed together with their answers beside their questions if each does. -/
theorem mapM_pair_eq_ok_iff {pairs : List (α × β)} :
    (as.mapM fun a => do return (a, ← f a)) = .ok pairs ↔
      pairs.map (·.1) = as ∧ ∀ pair ∈ pairs, f pair.1 = .ok pair.2 := by
  rw [mapM_eq_ok_iff]
  constructor
  · intro h
    induction h with
    | nil => exact ⟨rfl, fun _ hpair => absurd hpair List.not_mem_nil⟩
    | cons ha _ ih =>
      obtain ⟨b, hb, hpair⟩ := bind_eq_ok.1 ha
      obtain rfl := Except.ok.inj hpair
      exact ⟨by rw [List.map_cons, ih.1], List.forall_mem_cons.2 ⟨hb, ih.2⟩⟩
  · rintro ⟨rfl, h⟩
    rw [List.forall₂_map_left_iff, List.forall₂_same]
    exact fun pair hpair => bind_eq_ok.2 ⟨pair.2, h pair hpair, rfl⟩

/-- Of two lists that are related one to one, each item of the first has its fellow. -/
theorem exists_mem_of_forall₂ {R : α → β → Prop} {a : α} (h : List.Forall₂ R as bs)
    (ha : a ∈ as) : ∃ b ∈ bs, R a b := by
  induction h with
  | nil => cases ha
  | cons hfirst _ ih =>
    rcases List.mem_cons.1 ha with rfl | ha
    · exact ⟨_, List.mem_cons_self, hfirst⟩
    · obtain ⟨b, hb, hrel⟩ := ih ha
      exact ⟨b, List.mem_cons_of_mem _ hb, hrel⟩

/-- Steps that fail together fail as one of them does. -/
theorem exists_of_mapM_eq_error {e : ε} (h : as.mapM f = .error e) : ∃ a ∈ as, f a = .error e := by
  induction as with
  | nil => cases h
  | cons a as ih =>
    rw [List.mapM_cons, bind_eq_error] at h
    rcases h with h | ⟨b, -, h⟩
    · exact ⟨a, List.mem_cons_self, h⟩
    · rcases bind_eq_error.1 h with h | ⟨_, -, h⟩
      · obtain ⟨a', ha', h⟩ := ih h
        exact ⟨a', List.mem_cons_of_mem _ ha', h⟩
      · cases h

/-- Steps that are the same for each item are the same for the list. -/
theorem mapM_congr (h : ∀ a ∈ as, f a = g a) : as.mapM f = as.mapM g := by
  induction as with
  | nil => rfl
  | cons a as ih =>
    rw [List.forall_mem_cons] at h
    rw [List.mapM_cons, List.mapM_cons, h.1, ih h.2]

end Each

/-! ## Steps that give up -/

/-- The first result is the second, or else a failure of such a kind. -/
def AgreesUnless (such : ε → Prop) (x y : Except ε α) : Prop := x = y ∨ ∃ e, such e ∧ x = .error e

namespace AgreesUnless

variable {such such' : ε → Prop} {x y : Except ε α}

theorem refl (x : Except ε α) : AgreesUnless such x x := .inl rfl

theorem of_error {e : ε} (he : such e) : AgreesUnless such (.error e) y := .inr ⟨e, he, rfl⟩

/-- An answer of the first is that of the second. -/
theorem eq_ok {a : α} (h : AgreesUnless such x y) (hx : x = .ok a) : y = .ok a := by
  rcases h with rfl | ⟨e, -, he⟩
  · exact hx
  · cases he.symm.trans hx

/-- If there is no failure of such a kind, the results are the same. -/
theorem eq_of_not (h : AgreesUnless such x y) (hnot : ∀ e, ¬such e) : x = y := by
  rcases h with h | ⟨e, he, -⟩
  · exact h
  · exact absurd he (hnot e)

/-- A failure of another kind is that of the second. -/
theorem eq_error {e : ε} (h : AgreesUnless such x y) (hx : x = .error e) (he : ¬such e) :
    y = .error e := by
  rcases h with rfl | ⟨e', he', hx'⟩
  · exact hx
  · obtain rfl := Except.error.inj (hx.symm.trans hx')
    exact absurd he' he

theorem mono (h : AgreesUnless such x y) (himp : ∀ e, such e → such' e) :
    AgreesUnless such' x y := by
  rcases h with h | ⟨e, he, hx⟩
  · exact .inl h
  · exact .inr ⟨e, himp e he, hx⟩

/-- One step after another. -/
theorem bind {f g : α → Except ε β} (h : AgreesUnless such x y)
    (hnext : ∀ a, y = .ok a → AgreesUnless such (f a) (g a)) :
    AgreesUnless such (x >>= f) (y >>= g) := by
  rcases h with rfl | ⟨e, he, rfl⟩
  · cases x with
    | error e => exact .inl rfl
    | ok a => exact hnext a rfl
  · exact .of_error he

theorem map {f : α → β} (h : AgreesUnless such x y) : AgreesUnless such (f <$> x) (f <$> y) := by
  rcases h with rfl | ⟨e, he, rfl⟩
  · exact .inl rfl
  · exact .of_error he

theorem mapError {f : ε → ε'} {such' : ε' → Prop} (h : AgreesUnless such x y)
    (himp : ∀ e, such e → such' (f e)) : AgreesUnless such' (x.mapError f) (y.mapError f) := by
  rcases h with rfl | ⟨e, he, rfl⟩
  · exact .inl rfl
  · exact .of_error (himp e he)

/-- The same step for each item of a list. -/
theorem mapM {f g : α → Except ε β} {as : List α} (h : ∀ a ∈ as, AgreesUnless such (f a) (g a)) :
    AgreesUnless such (as.mapM f) (as.mapM g) := by
  induction as with
  | nil => exact .inl rfl
  | cons a as ih =>
    rw [List.forall_mem_cons] at h
    rw [List.mapM_cons, List.mapM_cons]
    exact h.1.bind fun b _ => (ih h.2).bind fun bs _ => .refl _

end AgreesUnless

end Marginalia
