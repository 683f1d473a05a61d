import Marginalia.Source.Line

/-!
# Lines that make a text

The contents and line ends a text is split into are never arbitrary: only the
last one may lack its line end, and a carriage return before a newline belongs
to the line end (`AreLines`). These lists are exactly the ones that splitting
gives back when they are put together.

* `areLines_pieces`: a text is split into such a list;
* `pieces_join`: such a list, put together, is split into itself;
* `AreLines.filterMap`, `AreLines.map`: leaving lines out and changing others keeps such
  a list, as long as no line is changed to a worse one;
* `split_firstLines`: the first lines of a text are a text of these lines;
* `split_eq_iff_isCut`: the lines of a text are the only well-formed lines that make it.
-/

namespace Marginalia.Line

/-- The content and the line end of a line. -/
def piece (line : Line) : Text × Text := (line.content, line.ending)

/-- A content and a line end that another line may follow. A newline alone does
    not end a line with a carriage return at its end. -/
def Ended (p : Text × Text) : Prop :=
  '\n' ∉ p.1 ∧ (p.2 = ['\r', '\n'] ∨ p.2 = ['\n'] ∧ p.1.getLast? ≠ some '\r')

/-- A content without a line end, which no other line may follow. -/
def Unended (p : Text × Text) : Prop := '\n' ∉ p.1 ∧ p.1 ≠ [] ∧ p.2 = []

/-- The lists of contents and line ends that are the lines of a text. -/
inductive AreLines : List (Text × Text) → Prop
  | nil : AreLines []
  | last {p : Text × Text} : Unended p → AreLines [p]
  | cons {p : Text × Text} {ps : List (Text × Text)} :
      Ended p → AreLines ps → AreLines (p :: ps)

/-- The text that contents and line ends make. -/
def joinPieces (ps : List (Text × Text)) : Text := ps.flatMap fun p => p.1 ++ p.2

/-! ## Splitting -/

theorem pieces_cons {c : Char} {rest content ending : Text} {more : List (Text × Text)}
    (hc : c ≠ '\n') (hr : c = '\r' → rest.head? ≠ some '\n')
    (h : pieces rest = (content, ending) :: more) :
    pieces (c :: rest) = (c :: content, ending) :: more := by
  rw [pieces, h]
  · exact hc
  · rintro tail rfl rfl
    exact hr rfl rfl

theorem pieces_ended {content ending : Text} (h : Ended (content, ending)) (rest : Text) :
    pieces (content ++ ending ++ rest) = (content, ending) :: pieces rest := by
  obtain ⟨hn, he⟩ := h
  induction content with
  | nil =>
    rcases he with rfl | ⟨rfl, _⟩
    · exact pieces.eq_3 rest
    · exact pieces.eq_2 rest
  | cons c content ih =>
    simp only [List.mem_cons, not_or] at hn
    refine pieces_cons (Ne.symm hn.1) ?_ (ih hn.2 (he.imp_right fun ⟨he, hl⟩ => ⟨he, ?_⟩))
    · -- What follows the carriage return is the rest of the content or the line end.
      rintro rfl
      cases content with
      | nil =>
        rcases he with rfl | ⟨rfl, hl⟩
        · simp
        · simp at hl
      | cons d content => simpa using fun hd : d = '\n' => hn.2 (by simp [hd])
    · cases content with
      | nil => simp
      | cons d content => rwa [List.getLast?_cons_cons] at hl

theorem pieces_unended {content : Text} (hn : '\n' ∉ content) (h : content ≠ []) :
    pieces content = [(content, [])] := by
  induction content with
  | nil => exact absurd rfl h
  | cons c content ih =>
    simp only [List.mem_cons, not_or] at hn
    cases content with
    | nil =>
      rw [pieces, pieces]
      · exact Ne.symm hn.1
      · simp
    | cons d content =>
      refine pieces_cons (Ne.symm hn.1) (fun _ => ?_) (ih hn.2 (List.cons_ne_nil _ _))
      simpa using fun hd : d = '\n' => hn.2 (by simp [hd])

/-- Lines put together are split into the same lines. -/
theorem pieces_join {ps : List (Text × Text)} (h : AreLines ps) : pieces (joinPieces ps) = ps := by
  induction h with
  | nil => rfl
  | @last p hp =>
    obtain ⟨content, ending⟩ := p
    obtain ⟨hn, hne, rfl⟩ := hp
    simpa [joinPieces] using pieces_unended hn hne
  | @cons p ps hp _ ih =>
    rw [joinPieces, List.flatMap_cons, pieces_ended hp]
    exact congrArg (p :: ·) ih

/-- A text is split into lines that another line may follow, but for the last. -/
theorem areLines_pieces (s : Text) : AreLines (pieces s) := by
  fun_induction pieces s with
  | case1 => exact .nil
  | case2 rest ih => exact .cons ⟨by simp, .inr ⟨rfl, by simp⟩⟩ ih
  | case3 rest ih => exact .cons ⟨by simp, .inl rfl⟩ ih
  | case4 c rest hc _ hp _ => exact .last ⟨by simpa using fun h => hc h.symm, by simp, rfl⟩
  | case5 c rest hc hr content ending more hp ih =>
    have hn : '\n' ≠ c := fun h => hc h.symm
    rw [hp] at ih
    cases ih with
    | last h => exact .last ⟨by simp [hn, h.1], by simp, h.2.2⟩
    | cons h hmore =>
      refine .cons ⟨by simp [hn, h.1], h.2.imp_right fun hnewline => ⟨hnewline.1, ?_⟩⟩ hmore
      obtain ⟨he, hl⟩ := hnewline
      cases content with
      | nil =>
        -- A carriage return here would have been taken to the line end.
        have hrest : rest = '\n' :: joinPieces more := by
          rw [← flatMap_pieces rest, hp]
          simp only at he
          simp [joinPieces, he]
        simpa using fun h : c = '\r' => hr _ h hrest
      | cons d content => rwa [List.getLast?_cons_cons]

/-- Lines stay lines when some are left out and others are changed, as long as
    each line that is kept may still stand where it stood. -/
theorem AreLines.filterMap {α : Type} {xs : List α} {f : α → Option (Text × Text)}
    {g : α → Text × Text} (h : AreLines (xs.map g))
    (hended : ∀ x ∈ xs, ∀ p, f x = some p → Ended (g x) → Ended p)
    (hunended : ∀ x ∈ xs, ∀ p, f x = some p → Unended (g x) → Unended p) :
    AreLines (xs.filterMap f) := by
  induction xs with
  | nil => exact .nil
  | cons x xs ih =>
    have hx := List.mem_cons_self (a := x) (l := xs)
    rw [List.map_cons] at h
    generalize hps : xs.map g = ps at h
    cases h with
    | last hp =>
      obtain rfl := List.map_eq_nil_iff.1 hps
      cases hf : f x with
      | none => simpa [hf] using AreLines.nil
      | some p => simpa [hf] using AreLines.last (hunended x hx p hf hp)
    | cons hp hrest =>
      have ih := ih (hps ▸ hrest) (fun y hy => hended y (List.mem_cons_of_mem _ hy))
        (fun y hy => hunended y (List.mem_cons_of_mem _ hy))
      cases hf : f x with
      | none => simpa [hf] using ih
      | some p => simpa [hf] using AreLines.cons (hended x hx p hf hp) ih

/-- Lines stay lines when none is changed to a worse one. -/
theorem AreLines.map {ps : List (Text × Text)} {g : Text × Text → Text × Text} (h : AreLines ps)
    (hended : ∀ p ∈ ps, Ended p → Ended (g p)) (hunended : ∀ p ∈ ps, Unended p → Unended (g p)) :
    AreLines (ps.map g) := by
  rw [← List.filterMap_eq_map]
  rw [← List.map_id ps] at h
  refine h.filterMap (fun p hp q hq he => ?_) (fun p hp q hq hu => ?_)
  · obtain rfl : g p = q := Option.some.inj hq
    exact hended p hp he
  · obtain rfl : g p = q := Option.some.inj hq
    exact hunended p hp hu

/-! ## Texts of complete lines -/

theorem areLines_of_ended {ps : List (Text × Text)} (h : ∀ p ∈ ps, Ended p) : AreLines ps := by
  induction ps with
  | nil => exact .nil
  | cons p ps ih =>
    rw [List.forall_mem_cons] at h
    exact .cons h.1 (ih h.2)

/-- Lines of which one lacks its line end make a text that does not end with one. -/
theorem AreLines.ended_or {ps : List (Text × Text)} (h : AreLines ps) :
    (∀ p ∈ ps, Ended p) ∨ ∃ c, (joinPieces ps).getLast? = some c ∧ c ≠ '\n' := by
  induction h with
  | nil => exact .inl fun p hp => absurd hp List.not_mem_nil
  | @last p hp =>
    obtain ⟨content, ending⟩ := p
    obtain ⟨hn, hne, rfl⟩ := hp
    refine .inr ⟨content.getLast hne, ?_, fun hc => hn (hc ▸ List.getLast_mem hne)⟩
    rw [joinPieces, List.flatMap_singleton, List.append_nil, List.getLast?_eq_some_getLast hne]
  | @cons p ps hp _ ih =>
    rcases ih with hall | ⟨c, hlast, hc⟩
    · exact .inl (List.forall_mem_cons.2 ⟨hp, hall⟩)
    · refine .inr ⟨c, ?_, hc⟩
      rw [joinPieces, List.flatMap_cons, List.getLast?_append, ← joinPieces, hlast, Option.some_or]

/-- Every line of a text has a line end, if the last one has. -/
theorem ended_of_mem_pieces {s : Text} (h : s = [] ∨ s.getLast? = some '\n') {p : Text × Text}
    (hp : p ∈ pieces s) : Ended p := by
  rcases (areLines_pieces s).ended_or with hall | ⟨c, hlast, hc⟩
  · exact hall p hp
  · rw [joinPieces, flatMap_pieces] at hlast
    rcases h with rfl | h
    · cases hlast
    · exact absurd (Option.some.inj (hlast.symm.trans h)) hc

/-- A text of complete lines, then another one: the lines of the one, then those of
    the other. -/
theorem pieces_append {u : Text} (h : u = [] ∨ u.getLast? = some '\n') (v : Text) :
    pieces (u ++ v) = pieces u ++ pieces v := by
  have hjoin : ∀ ps : List (Text × Text), (∀ p ∈ ps, Ended p) →
      pieces (joinPieces ps ++ v) = ps ++ pieces v := by
    intro ps hps
    induction ps with
    | nil => rfl
    | cons p ps ih =>
      rw [List.forall_mem_cons] at hps
      rw [joinPieces, List.flatMap_cons, List.append_assoc, pieces_ended hps.1, ← joinPieces,
        ih hps.2, List.cons_append]
  have hu := hjoin (pieces u) fun p hp => ended_of_mem_pieces h hp
  rwa [joinPieces, flatMap_pieces] at hu

/-! ## Numbered lines -/

/-- Lines with these contents and line ends, numbered from 0. -/
def numbered (ps : List (Text × Text)) : List Line :=
  ps.mapIdx fun number (content, ending) => ⟨number, content, ending⟩

theorem split_joinPieces {ps : List (Text × Text)} (h : AreLines ps) :
    split (joinPieces ps) = numbered ps := by
  rw [split, pieces_join h, numbered]

theorem numbered_concat (ps : List (Text × Text)) (p : Text × Text) :
    numbered (ps ++ [p]) = numbered ps ++ [⟨ps.length, p.1, p.2⟩] := List.mapIdx_concat

theorem map_piece_split (s : Text) : (split s).map piece = pieces s := by
  refine List.ext_getElem (by simp [split]) fun i h₁ h₂ => ?_
  simp [split, piece]

theorem number_of_getElem?_split {s : Text} {i : Nat} {line : Line}
    (h : (split s)[i]? = some line) : line.number = i := by
  simp only [split, List.getElem?_mapIdx, Option.map_eq_some_iff] at h
  obtain ⟨p, _, rfl⟩ := h
  rfl

theorem number_of_split_eq_append {s : Text} {before after : List Line} {line : Line}
    (h : split s = before ++ line :: after) : line.number = before.length := by
  refine number_of_getElem?_split (s := s) ?_
  rw [h, List.getElem?_append_right (Nat.le_refl _), Nat.sub_self, List.getElem?_cons_zero]

theorem join_eq_joinPieces (lines : List Line) : join lines = joinPieces (lines.map piece) := by
  simp only [join, joinPieces, List.flatMap_map, piece]
  rfl

/-! ## The first lines of a text -/

theorem AreLines.take {ps : List (Text × Text)} (h : AreLines ps) (n : Nat) :
    AreLines (ps.take n) := by
  induction h generalizing n with
  | nil => rw [List.take_nil]; exact .nil
  | last hp =>
    cases n with
    | zero => exact .nil
    | succ n => rw [List.take_succ_cons, List.take_nil]; exact .last hp
  | cons hp _ ih =>
    cases n with
    | zero => exact .nil
    | succ n => rw [List.take_succ_cons]; exact .cons hp (ih n)

/-- The text of the first lines of a text. -/
def firstLines (n : Nat) (s : Text) : Text := join ((split s).take n)

theorem split_firstLines (n : Nat) (s : Text) : split (firstLines n s) = (split s).take n := by
  rw [firstLines, join_eq_joinPieces, List.map_take, map_piece_split,
    split_joinPieces ((areLines_pieces s).take n), split, numbered]
  exact List.ext_getElem (by simp) fun i h₁ h₂ => by simp

/-! ## The one cut of a text into lines -/

/-- Contents and line ends as a text is cut into them. -/
structure IsCut (ps : List (Text × Text)) : Prop where
  newline_not_mem : ∀ p ∈ ps, '\n' ∉ p.1
  ending : ∀ p ∈ ps, p.2 = ['\n'] ∨ p.2 = ['\r', '\n'] ∨ p.2 = []
  /-- A carriage return before a newline belongs to the line end. -/
  getLast?_ne : ∀ p ∈ ps, p.2 = ['\n'] → p.1.getLast? ≠ some '\r'
  /-- A line without a line end has some content. -/
  content_ne_nil : ∀ p ∈ ps, p.2 = [] → p.1 ≠ []
  /-- Only the last line may lack a line end. -/
  ending_ne_nil : ∀ p ∈ ps.dropLast, p.2 ≠ []

variable {p : Text × Text} {ps : List (Text × Text)}

theorem Ended.ending_ne_nil (h : Ended p) : p.2 ≠ [] := by
  rcases h.2 with h | ⟨h, _⟩ <;> simp [h]

theorem ended_or_unended_iff : Ended p ∨ Unended p ↔ '\n' ∉ p.1 ∧
    (p.2 = ['\n'] ∨ p.2 = ['\r', '\n'] ∨ p.2 = []) ∧
    (p.2 = ['\n'] → p.1.getLast? ≠ some '\r') ∧ (p.2 = [] → p.1 ≠ []) := by
  constructor
  · rintro (⟨hn, hend | ⟨hend, hreturn⟩⟩ | ⟨hn, hne, hend⟩)
    · exact ⟨hn, .inr (.inl hend), by simp [hend], by simp [hend]⟩
    · exact ⟨hn, .inl hend, fun _ => hreturn, by simp [hend]⟩
    · exact ⟨hn, .inr (.inr hend), by simp [hend], fun _ => hne⟩
  · rintro ⟨hn, hend | hend | hend, hreturn, hne⟩
    · exact .inl ⟨hn, .inr ⟨hend, hreturn hend⟩⟩
    · exact .inl ⟨hn, .inl hend⟩
    · exact .inr ⟨hn, hne hend, hend⟩

/-- Of a cut, every line but the last may be followed by others. -/
theorem isCut_iff :
    IsCut ps ↔ (∀ p ∈ ps, Ended p ∨ Unended p) ∧ ∀ p ∈ ps.dropLast, p.2 ≠ [] := by
  simp only [ended_or_unended_iff]
  constructor
  · rintro ⟨hnewline, hending, hreturn, hcontent, hlast⟩
    exact ⟨fun p hp => ⟨hnewline p hp, hending p hp, hreturn p hp, hcontent p hp⟩, hlast⟩
  · rintro ⟨h, hlast⟩
    exact ⟨fun p hp => (h p hp).1, fun p hp => (h p hp).2.1, fun p hp => (h p hp).2.2.1,
      fun p hp => (h p hp).2.2.2, hlast⟩

theorem isCut_iff_areLines : IsCut ps ↔ AreLines ps := by
  rw [isCut_iff]
  constructor
  · rintro ⟨h, hlast⟩
    induction ps with
    | nil => exact .nil
    | cons p ps ih =>
      rw [List.forall_mem_cons] at h
      cases ps with
      | nil => exact h.1.elim (.cons · .nil) .last
      | cons q ps =>
        rw [List.dropLast_cons_cons, List.forall_mem_cons] at hlast
        -- An unended line would have to be the last one.
        exact .cons (h.1.resolve_right fun hp => hlast.1 hp.2.2) (ih h.2 hlast.2)
  · intro h
    induction h with
    | nil => simp
    | last hp => simpa using .inr hp
    | @cons p ps hp _ ih =>
      refine ⟨List.forall_mem_cons.2 ⟨.inl hp, ih.1⟩, ?_⟩
      cases ps with
      | nil => simp
      | cons q ps => exact List.forall_mem_cons.2 ⟨hp.ending_ne_nil, ih.2⟩

/-- The lines of a text are numbered from 0, and their contents and line ends are the
    only cut that makes the text. -/
theorem split_eq_iff_isCut (s : Text) :
    (split s).map (·.number) = List.range (split s).length ∧
      ∀ ps, (split s).map piece = ps ↔ IsCut ps ∧ joinPieces ps = s := by
  refine ⟨?_, fun ps => ?_⟩
  · refine List.ext_getElem (by simp) fun i h₁ h₂ => ?_
    simp [split]
  · rw [map_piece_split, isCut_iff_areLines]
    constructor
    · rintro rfl
      exact ⟨areLines_pieces s, flatMap_pieces s⟩
    · rintro ⟨h, rfl⟩
      exact pieces_join h

/-- Only the last of the carriage returns before a newline belongs to the line end. -/
example : (split "a\r\r\n\n\rb\r".toList).map piece =
    [(['a', '\r'], ['\r', '\n']), ([], ['\n']), (['\r', 'b', '\r'], [])] := by decide

end Marginalia.Line
