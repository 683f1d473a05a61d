import Marginalia.Json.Reader
import Marginalia.Proofs.Result

/-!
# How deep values are nested

A limit to how deep values are nested does nothing but refuse the texts that go beyond
it. Under two limits a text is read the same, unless it is beyond the smaller one
(`agree_of_le`), and the length of a text is no limit to it (`unlimited_of_le`). So
what is read within a limit is what is read without one (`read_agrees`).
-/

namespace Marginalia.Json

variable {bound depth depth' limit : Nat} {s : Text}

/-! ## Two limits -/

/-- What is at a place is read the same under two limits, unless it is beyond the first. -/
structure Agree (bound depth depth' : Nat) : Prop where
  value : ∀ p, AgreesUnless (· = .tooDeep) (readValue bound depth p) (readValue bound depth' p)
  items : ∀ p, AgreesUnless (· = .tooDeep) (readItems bound depth p) (readItems bound depth' p)
  fields : ∀ p, AgreesUnless (· = .tooDeep) (readFields bound depth p) (readFields bound depth' p)

theorem Agree.readValue (ih : ∀ {depth depth' : Nat}, depth ≤ depth' → Agree bound depth depth')
    (h : depth ≤ depth') (p : Place) :
    AgreesUnless (· = .tooDeep) (readValue (bound + 1) depth p)
      (readValue (bound + 1) depth' p) := by
  rw [Json.readValue, Json.readValue]
  split
  · exact .refl _
  -- An array or an object takes one level off both limits.
  · cases depth with
    | zero => exact .of_error rfl
    | succ depth =>
      obtain ⟨depth', rfl⟩ := Nat.exists_eq_succ_of_ne_zero (Nat.ne_of_gt (Nat.zero_lt_of_lt h))
      dsimp only
      split
      · rename_i hzero
        cases hzero
      · rename_i hclose _
        rw [hclose]
        exact .refl _
      · rename_i hdepth _
        obtain rfl := Nat.succ.inj hdepth
        exact ((ih (Nat.le_of_succ_le_succ h)).items _).bind fun _ _ => .refl _
  · cases depth with
    | zero => exact .of_error rfl
    | succ depth =>
      obtain ⟨depth', rfl⟩ := Nat.exists_eq_succ_of_ne_zero (Nat.ne_of_gt (Nat.zero_lt_of_lt h))
      dsimp only
      split
      · rename_i hzero
        cases hzero
      · rename_i hclose _
        rw [hclose]
        exact .refl _
      · rename_i hdepth _
        obtain rfl := Nat.succ.inj hdepth
        exact ((ih (Nat.le_of_succ_le_succ h)).fields _).bind fun _ _ => .refl _
  · exact .refl _

theorem agree_of_le (h : depth ≤ depth') : Agree bound depth depth' := by
  induction bound generalizing depth depth' with
  | zero => exact ⟨fun _ => .refl _, fun _ => .refl _, fun _ => .refl _⟩
  | succ bound ih =>
    refine ⟨Agree.readValue ih h, fun p => ?_, fun p => ?_⟩
    · rw [readItems, readItems]
      refine ((ih h).value p).bind fun item _ => ?_
      obtain ⟨item, after⟩ := item
      dsimp only
      split
      · exact .refl _
      · exact ((ih h).items _).bind fun _ _ => .refl _
      · exact .refl _
    · rw [readFields, readFields]
      split
      · refine (AgreesUnless.refl _).bind fun name _ => ?_
        obtain ⟨name, after⟩ := name
        dsimp only
        split
        · refine ((ih h).value _).bind fun value _ => ?_
          obtain ⟨value, after⟩ := value
          dsimp only
          split
          · exact .refl _
          · exact ((ih h).fields _).bind fun _ _ => .refl _
          · exact .refl _
        · exact .refl _
      · exact .refl _

/-! ## No limit -/

theorem bind_ne_tooDeep {α β : Type} {x : Except Refusal α} {f : α → Except Refusal β}
    (hx : x ≠ .error .tooDeep) (hf : ∀ a, f a ≠ .error .tooDeep) : x >>= f ≠ .error .tooDeep := by
  intro h
  rcases bind_eq_error.1 h with h | ⟨a, -, h⟩
  · exact hx h
  · exact hf a h

theorem pure_ne_tooDeep {α : Type} (a : α) : (pure a : Except Refusal α) ≠ .error .tooDeep :=
  fun h => nomatch h

theorem fail_ne_tooDeep {α : Type} (p : Place) (flaw : Flaw) :
    (p.fail flaw : Except Refusal α) ≠ .error .tooDeep := fun h => nomatch h

theorem spelled_ne_tooDeep (p : Place) : spelled p ≠ .error .tooDeep := by
  rw [spelled]
  repeat' split
  all_goals exact fun h => nomatch h

theorem readText_ne_tooDeep (opening : Place) (n : Nat) (p : Place) :
    readText opening n p ≠ .error .tooDeep := by
  fun_induction readText opening n p with
  | case1 | case2 | case3 | case4 | case6 | case8 => exact fun h => nomatch h
  | case5 _ _ _ _ ih =>
    refine bind_ne_tooDeep (spelled_ne_tooDeep _) fun spelling => ?_
    exact bind_ne_tooDeep (ih spelling.2) fun _ => pure_ne_tooDeep _
  | case7 _ _ _ _ _ _ _ _ ih => exact bind_ne_tooDeep ih fun _ => pure_ne_tooDeep _
  | case9 _ _ _ _ _ _ _ _ _ _ ih => exact bind_ne_tooDeep ih fun _ => pure_ne_tooDeep _

theorem readNumber_ne_tooDeep (p : Place) : readNumber p ≠ .error .tooDeep := by
  rw [readNumber]
  repeat' split
  all_goals exact fun h => nomatch h

/-- What is at a place is not refused for its depth. -/
structure Unlimited (bound depth : Nat) : Prop where
  value : ∀ p, readValue bound depth p ≠ .error .tooDeep
  items : ∀ p, readItems bound depth p ≠ .error .tooDeep
  fields : ∀ p, readFields bound depth p ≠ .error .tooDeep

theorem Unlimited.readValue (ih : ∀ {depth : Nat}, bound ≤ depth → Unlimited bound depth)
    (h : bound + 1 ≤ depth) (p : Place) : readValue (bound + 1) depth p ≠ .error .tooDeep := by
  -- The limit is above the number of values, which is one less inside of one.
  obtain ⟨depth, rfl⟩ := Nat.exists_eq_succ_of_ne_zero (Nat.ne_of_gt (Nat.zero_lt_of_lt h))
  have hinside := ih (Nat.le_of_succ_le_succ h)
  rw [Json.readValue]
  split
  · exact bind_ne_tooDeep (readText_ne_tooDeep _ _ _) fun _ => pure_ne_tooDeep _
  · dsimp only
    split
    · rename_i hzero
      cases hzero
    · exact pure_ne_tooDeep _
    · rename_i hdepth _
      obtain rfl := Nat.succ.inj hdepth
      exact bind_ne_tooDeep (hinside.items _) fun _ => pure_ne_tooDeep _
  · dsimp only
    split
    · rename_i hzero
      cases hzero
    · exact pure_ne_tooDeep _
    · rename_i hdepth _
      obtain rfl := Nat.succ.inj hdepth
      exact bind_ne_tooDeep (hinside.fields _) fun _ => pure_ne_tooDeep _
  · split
    · exact pure_ne_tooDeep _
    · exact readNumber_ne_tooDeep p

theorem unlimited_of_le (h : bound ≤ depth) : Unlimited bound depth := by
  induction bound generalizing depth with
  | zero => exact ⟨fun _ => fail_ne_tooDeep _ _, fun _ => fail_ne_tooDeep _ _,
      fun _ => fail_ne_tooDeep _ _⟩
  | succ bound ih =>
    have hrest := ih (Nat.le_of_succ_le h)
    refine ⟨Unlimited.readValue ih h, fun p => ?_, fun p => ?_⟩
    · rw [readItems]
      refine bind_ne_tooDeep (hrest.value p) fun item => ?_
      obtain ⟨item, after⟩ := item
      dsimp only
      split
      · exact pure_ne_tooDeep _
      · exact bind_ne_tooDeep (hrest.items _) fun _ => pure_ne_tooDeep _
      · exact fail_ne_tooDeep _ _
    · rw [readFields]
      split
      · refine bind_ne_tooDeep (readText_ne_tooDeep _ _ _) fun name => ?_
        obtain ⟨name, after⟩ := name
        dsimp only
        split
        · refine bind_ne_tooDeep (hrest.value _) fun value => ?_
          obtain ⟨value, after⟩ := value
          dsimp only
          split
          · exact pure_ne_tooDeep _
          · exact bind_ne_tooDeep (hrest.fields _) fun _ => pure_ne_tooDeep _
          · exact fail_ne_tooDeep _ _
        · exact fail_ne_tooDeep _ _
      · exact fail_ne_tooDeep _ _

/-! ## Whole texts -/

/-- Whatever the limit, a value is read as it is under one that no value is beyond. -/
theorem readValue_agrees (bound depth : Nat) (p : Place) :
    AgreesUnless (· = .tooDeep) (readValue bound depth p) (readValue bound bound p) := by
  rcases Nat.le_total depth bound with hle | hle
  · exact (agree_of_le hle).value p
  · rcases (agree_of_le hle).value p with heq | ⟨refusal, rfl, hdeep⟩
    · exact .inl heq.symm
    · exact absurd hdeep ((unlimited_of_le (Nat.le_refl bound)).value p)

/-- What is read within a limit is what is read without one. -/
theorem read_agrees (s : Text) (limit : Option Nat) :
    AgreesUnless (· = .tooDeep) (read s limit) (read s) := by
  rw [read, read]
  split
  · exact .refl _
  · exact (readValue_agrees _ _ _).bind fun _ _ => .refl _

end Marginalia.Json
