import Marginalia.Text.Basic

/-!
# Patterns

A pattern can match a text in many ways. A backtracking search tries them in a fixed order and
takes the first: a greedy repetition takes as much as it can before it gives back character by
character, a lazy one as little as it can, and an optional part is there if it can be. The ways
are listed in that order (`Pattern.ways`); what follows a part of a pattern decides which of
them is taken, so the lemmas here say what the first one is that a continuation accepts.

* `findSome?_repeats_greedy`: all that can be repeated is taken, if what follows cannot start
  with more of it;
* `findSome?_repeats_all`: and also if what follows accepts what is left then;
* `findSome?_repeats_lazy`: the first point is taken from which on what follows accepts.
-/

namespace Marginalia.Text

/-- The ends of the repetitions of characters that satisfy `p`, from `least` to `most` of them,
    in the order they are tried: a greedy repetition goes on before it stops. -/
def repeats (p : Char → Bool) (greedy : Bool) (least : Nat) (most : Option Nat) : Text → List Text
  | [] => if least = 0 then [[]] else []
  | c :: rest =>
    let onward :=
      if p c ∧ most ≠ some 0 then repeats p greedy (least - 1) (most.map (· - 1)) rest else []
    let stop := if least = 0 then [c :: rest] else []
    if greedy then onward ++ stop else stop ++ onward

/-- A pattern. -/
inductive Pattern
  /-- From `least` to `most` characters that satisfy `p`. -/
  | run (p : Char → Bool) (greedy : Bool) (least : Nat) (most : Option Nat)
  /-- The one, and the other after it. -/
  | seq (first second : Pattern)
  /-- The pattern, or else nothing. -/
  | maybe (body : Pattern)
  /-- The pattern, its text kept as the group of that number. -/
  | group (number : Nat) (body : Pattern)
  /-- The end of the text, or a newline that ends it. -/
  | atEnd

namespace Pattern

/-- What has been matched: the groups so far, the last one first, and the rest of the text. -/
structure Progress where
  groups : List (Nat × Text)
  rest : Text
  deriving DecidableEq, Repr

/-- The ways to match the pattern, in the order they are tried. -/
def ways : Pattern → Progress → List Progress
  | run p greedy least most, m => (repeats p greedy least most m.rest).map fun rest => { m with rest }
  | seq first second, m => (first.ways m).flatMap second.ways
  | maybe body, m => body.ways m ++ [m]
  | group number body, m => (body.ways m).map fun after =>
      { after with
        groups := (number, m.rest.take (m.rest.length - after.rest.length)) :: after.groups }
  | atEnd, m => if m.rest = [] ∨ m.rest = ['\n'] then [m] else []

/-- The groups of the match at the start of a text, if there is one. -/
def match? (pattern : Pattern) (s : Text) : Option (List (Nat × Text)) :=
  ((pattern.ways ⟨[], s⟩).head?).map (·.groups)

end Pattern

variable {α : Type} {p : Char → Bool} {least : Nat} {most : Option Nat} {k : Text → Option α}
  {s t : Text} {c : Char} {x : α}

/-! ## Repetitions -/

/-- All that can be repeated is taken if what follows cannot start with more of it. -/
theorem findSome?_repeats_greedy (hk : ∀ c t, c :: t <:+ s → p c → k (c :: t) = none) :
    (repeats p true least most s).findSome? k =
      if least ≤ (s.takeWhile p).length ∧ most.all ((s.takeWhile p).length ≤ ·) = true then
        k (s.dropWhile p)
      else none := by
  induction s generalizing least most with
  | nil =>
    rw [repeats]
    by_cases hleast : least = 0
    · subst hleast
      cases most <;> simp
    · rw [if_neg hleast, List.takeWhile_nil, if_neg fun h => hleast (Nat.le_zero.1 h.1)]
      rfl
  | cons c rest ih =>
    have hrest := fun d t (hd : d :: t <:+ rest) => hk d t (hd.trans (List.suffix_cons c rest))
    rw [repeats, if_pos rfl, List.findSome?_append]
    by_cases hc : p c
    · have hstop : (if least = 0 then [c :: rest] else []).findSome? k = none := by
        split
        · rw [List.findSome?_singleton, hk c rest (List.suffix_refl _) hc]
        · rfl
      rw [hstop, Option.or_none, List.takeWhile_cons_of_pos hc, List.dropWhile_cons_of_pos hc,
        List.length_cons]
      cases most with
      | none =>
        rw [if_pos ⟨hc, nofun⟩, ih hrest]
        simp
      | some most =>
        cases most with
        | zero => simp
        | succ most =>
          rw [if_pos ⟨hc, by simp⟩, ih hrest]
          simp
    · rw [if_neg fun h => hc h.1, List.takeWhile_cons_of_neg hc, List.dropWhile_cons_of_neg hc]
      by_cases hleast : least = 0
      · subst hleast
        cases most <;> simp
      · rw [if_neg hleast, if_neg fun h => hleast (Nat.le_zero.1 h.1)]
        rfl

/-- All that can be repeated is taken if what follows accepts what is left then. -/
theorem findSome?_repeats_all (hleast : least ≤ (s.takeWhile p).length)
    (hk : k (s.dropWhile p) = some x) : (repeats p true least none s).findSome? k = some x := by
  induction s generalizing least with
  | nil =>
    obtain rfl : least = 0 := Nat.le_zero.1 hleast
    rw [repeats, if_pos rfl, List.findSome?_singleton]
    exact hk
  | cons c rest ih =>
    rw [repeats, if_pos rfl, List.findSome?_append]
    by_cases hc : p c
    · rw [List.takeWhile_cons_of_pos hc, List.length_cons] at hleast
      rw [List.dropWhile_cons_of_pos hc] at hk
      rw [if_pos ⟨hc, nofun⟩, Option.map_none, ih (by omega) hk, Option.some_or]
    · rw [List.takeWhile_cons_of_neg hc] at hleast
      rw [List.dropWhile_cons_of_neg hc] at hk
      rw [if_neg fun h => hc h.1, if_pos (Nat.le_zero.1 hleast), List.findSome?_singleton, hk]
      rfl

/-- A lazy repetition stops at the first point from which on what follows accepts. -/
theorem findSome?_repeats_lazy (hs : ∀ c ∈ s, p c) (hk : k t = some x)
    (hbefore : ∀ before c after, s = before ++ c :: after → k (c :: (after ++ t)) = none) :
    (repeats p false 0 none (s ++ t)).findSome? k = some x := by
  induction s with
  | nil =>
    rw [List.nil_append]
    cases t with
    | nil => rw [repeats, if_pos rfl, List.findSome?_singleton, hk]
    | cons c t =>
      rw [repeats, if_neg Bool.false_ne_true, if_pos rfl, List.findSome?_append,
        List.findSome?_singleton, hk, Option.some_or]
  | cons c rest ih =>
    rw [List.forall_mem_cons] at hs
    rw [List.cons_append, repeats, if_neg Bool.false_ne_true, if_pos rfl, List.findSome?_append,
      List.findSome?_singleton, hbefore [] c rest rfl, Option.none_or,
      if_pos ⟨hs.1, nofun⟩]
    exact ih hs.2 fun before d after h => hbefore (c :: before) d after (by rw [h]; rfl)

namespace Pattern

/-! ## What follows a pattern -/

variable {k : Progress → Option α} {m : Progress}

/-- What the first way to match the pattern leads to that what follows accepts. -/
def first (pattern : Pattern) (k : Progress → Option α) (m : Progress) : Option α :=
  (pattern.ways m).findSome? k

theorem first_run (p : Char → Bool) (greedy : Bool) (least : Nat) (most : Option Nat)
    (k : Progress → Option α) (m : Progress) : (run p greedy least most).first k m =
      (repeats p greedy least most m.rest).findSome? fun rest => k { m with rest } := by
  rw [first, ways, List.findSome?_map]
  rfl

theorem first_seq (before after : Pattern) (k : Progress → Option α) (m : Progress) :
    (seq before after).first k m = before.first (after.first k) m := by
  simp only [first, ways]
  induction before.ways m with
  | nil => rfl
  | cons way others ih =>
    rw [List.flatMap_cons, List.findSome?_append, ih, List.findSome?_cons, first]
    cases (after.ways way).findSome? k <;> rfl

theorem first_maybe (body : Pattern) (k : Progress → Option α) (m : Progress) :
    (maybe body).first k m = (body.first k m).or (k m) := by
  rw [first, ways, List.findSome?_append, List.findSome?_singleton]
  rfl

theorem first_group (number : Nat) (body : Pattern) (k : Progress → Option α) (m : Progress) :
    (group number body).first k m = body.first (fun after => k { after with
      groups := (number, m.rest.take (m.rest.length - after.rest.length)) :: after.groups }) m := by
  rw [first, ways, List.findSome?_map]
  rfl

theorem first_atEnd (k : Progress → Option α) (m : Progress) :
    atEnd.first k m = if m.rest = [] ∨ m.rest = ['\n'] then k m else none := by
  rw [first, ways]
  split
  · rw [List.findSome?_singleton]
  · rfl

theorem match?_eq (pattern : Pattern) (s : Text) :
    pattern.match? s = pattern.first (fun m => some m.groups) ⟨[], s⟩ := by
  rw [match?, first]
  cases pattern.ways ⟨[], s⟩ <;> rfl

end Pattern

end Marginalia.Text
