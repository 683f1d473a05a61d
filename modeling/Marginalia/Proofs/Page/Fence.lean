import Mathlib.Data.List.TakeWhile
import Marginalia.Page.Heading

/-!
# Fenced code

The lines of a write-up are cut into lines outside of fenced code and blocks of it: a line that
opens code, the lines of the code, and the first line that closes it, if there is one before the
end of the text. Which lines open and close code is a *fencing*. There is one cut of all lines
for each (`exists_isCut`, `IsCut.eq_cut`).

In the `strict` fencing, that of write-ups, no backtick comes after the backticks that open code,
and nothing but blanks after the fence that closes it. In the `lenient` one anything may stand
there. Blocks at the start of a cut that are blocks in another fencing start the cut in that one
too (`IsCut.isPrefix_cut`).
-/

namespace Marginalia.Heading

/-- The line is at most three spaces, the longest run of a mark, and the rest. -/
def IsRun (mark : Char) (length : Nat) (line rest : Text) : Prop :=
  ∃ indent ≤ 3, line = List.replicate indent ' ' ++ (List.replicate length mark ++ rest) ∧
    rest.head? ≠ some mark

/-- What may stand after a fence. -/
structure Fencing where
  /-- After one of that mark that opens code. -/
  AfterOpening : Char → Text → Prop
  /-- After one that closes code. -/
  AfterClosing : Text → Prop

namespace Fencing

/-- Backticks that open code have no other one after them, and what closes code has nothing after
    it but spaces and tabs. -/
def strict : Fencing where
  AfterOpening mark rest := mark = '\x60' → '\x60' ∉ rest
  AfterClosing rest := ∀ c ∈ rest, Text.isSpaceOrTab c = true

/-- Anything may stand after a fence. -/
def lenient : Fencing := ⟨fun _ _ => True, fun _ => True⟩

variable (fencing : Fencing)

/-- The line opens code with a fence: three or more backticks or tildes. -/
def Opens (fence : Fence) (line : Text) : Prop :=
  (fence.mark = '\x60' ∨ fence.mark = '~') ∧ 3 ≤ fence.length ∧
    ∃ rest, IsRun fence.mark fence.length line rest ∧ fencing.AfterOpening fence.mark rest

/-- The line closes the code that a fence opened: it has a run of the same mark, at least as long. -/
def Closes (fence : Fence) (line : Text) : Prop :=
  ∃ length rest, fence.length ≤ length ∧ IsRun fence.mark length line rest ∧
    fencing.AfterClosing rest

end Fencing

/-- A part of a write-up: a line, or a block of fenced code. -/
inductive Block
  | line (line : Text)
  | fenced (fence : Fence) (opening : Text) (code : List Text) (closing : Option Text)

namespace Block

/-- The lines of a block. -/
def lines : Block → List Text
  | line l => [l]
  | fenced _ opening code closing => opening :: (code ++ closing.toList)

/-- The lines outside of fenced code. -/
def outside : Block → List Text
  | line l => [l]
  | fenced .. => []

/-- Only the end of the text ends a block that is not closed. -/
def IsClosed : Block → Prop
  | line _ => True
  | fenced _ _ _ closing => closing.isSome = true

end Block

/-- The lines of blocks. -/
def linesOf (blocks : List Block) : List Text := blocks.flatMap Block.lines

/-- The lines outside of fenced code. -/
def outside (blocks : List Block) : List Text := blocks.flatMap Block.outside

namespace Fencing

/-- A line that does not open code, or code that ends with the first line that closes it. -/
def IsBlock (fencing : Fencing) : Block → Prop
  | .line l => ∀ fence, ¬fencing.Opens fence l
  | .fenced fence opening code closing => fencing.Opens fence opening ∧
      (∀ l ∈ code, ¬fencing.Closes fence l) ∧ ∀ l ∈ closing, fencing.Closes fence l

/-- The blocks that lines are cut into. -/
structure IsCut (fencing : Fencing) (blocks : List Block) : Prop where
  isBlock : ∀ block ∈ blocks, fencing.IsBlock block
  isClosed : ∀ block ∈ blocks.dropLast, block.IsClosed

end Fencing

variable {fencing : Fencing} {fence other : Fence} {mark : Char} {length : Nat} {line rest : Text}
  {block : Block} {blocks others : List Block}

/-! ## Runs of a mark -/

theorem takeWhile_replicate_append (length : Nat) (h : rest.head? ≠ some mark) :
    (List.replicate length mark ++ rest).takeWhile (· == mark) = List.replicate length mark := by
  have hrest : rest.takeWhile (· == mark) = [] := by
    cases rest with
    | nil => rfl
    | cons c rest => exact List.takeWhile_cons_of_neg fun hc => h (congrArg some (eq_of_beq hc))
  rw [List.takeWhile_append_of_pos fun c hc => beq_iff_eq.2 (List.eq_of_mem_replicate hc), hrest,
    List.append_nil]

theorem dropWhile_replicate_append (length : Nat) (h : rest.head? ≠ some mark) :
    (List.replicate length mark ++ rest).dropWhile (· == mark) = rest := by
  have hsplit := List.takeWhile_append_dropWhile (p := (· == mark))
    (l := List.replicate length mark ++ rest)
  rw [takeWhile_replicate_append length h] at hsplit
  exact List.append_cancel_left hsplit

theorem replicate_append_dropWhile (mark : Char) (s : Text) :
    List.replicate (s.takeWhile (· == mark)).length mark ++ s.dropWhile (· == mark) = s := by
  have hrun : s.takeWhile (· == mark) = List.replicate (s.takeWhile (· == mark)).length mark :=
    List.eq_replicate_iff.2 ⟨rfl, fun c hc => beq_iff_eq.1 (List.mem_takeWhile_imp (p := (· == mark)) hc)⟩
  rw [← hrun, List.takeWhile_append_dropWhile]

theorem head?_dropWhile_ne (mark : Char) (s : Text) :
    (s.dropWhile (· == mark)).head? ≠ some mark := by
  intro h
  have hnot := List.head?_dropWhile_not (· == mark) s
  rw [h] at hnot
  exact Bool.false_ne_true (hnot.symm.trans (beq_self_eq_true mark))

theorem unindent?_eq_some_iff (h : rest.head? ≠ some ' ') : unindent? line = some rest ↔
    ∃ indent ≤ 3, line = List.replicate indent ' ' ++ rest := by
  rw [unindent?, Option.ite_none_right_eq_some]
  constructor
  · rintro ⟨hindent, hrest⟩
    refine ⟨_, hindent, ?_⟩
    rw [← Option.some.inj hrest, replicate_append_dropWhile]
  · rintro ⟨indent, hindent, rfl⟩
    rw [takeWhile_replicate_append indent h, dropWhile_replicate_append indent h,
      List.length_replicate]
    exact ⟨hindent, rfl⟩

theorem head?_replicate_append_ne (hmark : mark ≠ ' ') (hlength : 0 < length) (rest : Text) :
    (List.replicate length mark ++ rest).head? ≠ some ' ' := by
  cases length with
  | zero => cases hlength
  | succ length => exact fun h => hmark (Option.some.inj h)

theorem isRun_iff (hmark : mark ≠ ' ') (hlength : 0 < length) : IsRun mark length line rest ↔
    unindent? line = some (List.replicate length mark ++ rest) ∧ rest.head? ≠ some mark := by
  rw [unindent?_eq_some_iff (head?_replicate_append_ne hmark hlength rest)]
  exact ⟨fun ⟨indent, hindent, hline, hrest⟩ => ⟨⟨indent, hindent, hline⟩, hrest⟩,
    fun ⟨⟨indent, hindent, hline⟩, hrest⟩ => ⟨indent, hindent, hline, hrest⟩⟩

/-- There is one run of a mark at the start of a line. -/
theorem IsRun.eq (h : IsRun mark length line rest) (hmark : mark ≠ ' ') (hlength : 0 < length) :
    length = ((line.dropWhile (· == ' ')).takeWhile (· == mark)).length ∧
      rest = (line.dropWhile (· == ' ')).dropWhile (· == mark) := by
  obtain ⟨indent, -, rfl, hrest⟩ := h
  rw [dropWhile_replicate_append indent (head?_replicate_append_ne hmark hlength rest),
    takeWhile_replicate_append length hrest, dropWhile_replicate_append length hrest,
    List.length_replicate]
  exact ⟨rfl, rfl⟩

/-! ## Fences -/

/-- A fence is three or more backticks or tildes, and the longest run of them. -/
theorem fence?_eq_some_iff : fence? line = some fence ↔
    (fence.mark = '\x60' ∨ fence.mark = '~') ∧ 3 ≤ fence.length ∧
      ∃ rest, IsRun fence.mark fence.length line rest := by
  obtain ⟨mark, length⟩ := fence
  have hspace : (mark = '\x60' ∨ mark = '~') → mark ≠ ' ' := by
    rintro (rfl | rfl) <;> decide
  rw [fence?]
  constructor
  · intro h
    obtain ⟨body, hbody, h⟩ := Option.bind_eq_some_iff.1 h
    obtain ⟨first, hfirst, h⟩ := Option.bind_eq_some_iff.1 h
    obtain ⟨⟨hmark, hlength⟩, h⟩ := Option.ite_none_right_eq_some.1 h
    obtain ⟨rfl, rfl⟩ := Fence.mk.inj (Option.some.inj h)
    refine ⟨hmark, hlength, body.dropWhile (· == first), ?_⟩
    rw [isRun_iff (hspace hmark) (Nat.lt_of_lt_of_le (by decide) hlength), replicate_append_dropWhile]
    exact ⟨hbody, head?_dropWhile_ne first body⟩
  · rintro ⟨hmark, hlength, rest, hrun⟩
    have hpos : 0 < length := Nat.lt_of_lt_of_le (by decide) hlength
    obtain ⟨hbody, hrest⟩ := (isRun_iff (hspace hmark) hpos).1 hrun
    have hhead : (List.replicate length mark ++ rest).head? = some mark := by
      cases length with
      | zero => omega
      | succ length => rfl
    simp only [hbody, hhead, bind, Option.bind_some]
    rw [takeWhile_replicate_append length hrest, List.length_replicate, if_pos ⟨hmark, hlength⟩]

namespace Fencing

theorem opens_lenient_iff : lenient.Opens fence line ↔ fence? line = some fence := by
  simp only [fence?_eq_some_iff, Opens, lenient, and_true]

/-- What opens code opens it in the lenient fencing. -/
theorem Opens.to_lenient (h : fencing.Opens fence line) : lenient.Opens fence line := by
  obtain ⟨hmark, hlength, rest, hrun, -⟩ := h
  exact ⟨hmark, hlength, rest, hrun, trivial⟩

theorem Opens.fence?_eq (h : fencing.Opens fence line) : fence? line = some fence :=
  opens_lenient_iff.1 h.to_lenient

/-- A line opens code with one fence only. -/
theorem Opens.unique (h : fencing.Opens fence line) (hother : fencing.Opens other line) :
    fence = other := Option.some.inj (h.fence?_eq.symm.trans hother.fence?_eq)

/-- What closes code closes it in the lenient fencing. -/
theorem Closes.to_lenient (h : fencing.Closes fence line) : lenient.Closes fence line := by
  obtain ⟨length, rest, hlength, hrun, -⟩ := h
  exact ⟨length, rest, hlength, hrun, trivial⟩

/-- What closes code in the lenient fencing is a fence that ends the one that opened it. -/
theorem Opens.closes_lenient_iff {opening : Text} (h : fencing.Opens fence opening) :
    lenient.Closes fence line ↔ ∃ other, fence? line = some other ∧ other.ends fence = true := by
  constructor
  · rintro ⟨length, rest, hlength, hrun, -⟩
    refine ⟨⟨fence.mark, length⟩, ?_, ?_⟩
    · exact fence?_eq_some_iff.2 ⟨h.1, h.2.1.trans hlength, rest, hrun⟩
    · exact Bool.and_eq_true_iff.2 ⟨beq_self_eq_true fence.mark, decide_eq_true hlength⟩
  · rintro ⟨other, hother, hends⟩
    obtain ⟨hmark, hlength⟩ := Bool.and_eq_true_iff.1 hends
    obtain ⟨-, -, rest, hrun⟩ := fence?_eq_some_iff.1 hother
    exact ⟨other.length, rest, of_decide_eq_true hlength, eq_of_beq hmark ▸ hrun, trivial⟩

end Fencing

/-! ## The cut of lines into blocks -/

theorem linesOf_cons (block : Block) (blocks : List Block) :
    linesOf (block :: blocks) = block.lines ++ linesOf blocks := List.flatMap_cons

theorem linesOf_append (blocks others : List Block) :
    linesOf (blocks ++ others) = linesOf blocks ++ linesOf others := List.flatMap_append

theorem outside_cons (block : Block) (blocks : List Block) :
    outside (block :: blocks) = block.outside ++ outside blocks := List.flatMap_cons

namespace Fencing

theorem isCut_nil (fencing : Fencing) : fencing.IsCut [] :=
  ⟨fun _ h => absurd h List.not_mem_nil, fun _ h => absurd h List.not_mem_nil⟩

theorem isCut_cons_iff : fencing.IsCut (block :: blocks) ↔
    fencing.IsBlock block ∧ (blocks ≠ [] → block.IsClosed) ∧ fencing.IsCut blocks := by
  constructor
  · rintro ⟨hblock, hclosed⟩
    rw [List.forall_mem_cons] at hblock
    cases blocks with
    | nil => exact ⟨hblock.1, fun hne => absurd rfl hne, isCut_nil fencing⟩
    | cons next blocks =>
      rw [List.dropLast_cons_cons, List.forall_mem_cons] at hclosed
      exact ⟨hblock.1, fun _ => hclosed.1, hblock.2, hclosed.2⟩
  · rintro ⟨hblock, hclosed, hrest⟩
    refine ⟨List.forall_mem_cons.2 ⟨hblock, hrest.isBlock⟩, ?_⟩
    cases blocks with
    | nil => exact fun _ h => absurd h List.not_mem_nil
    | cons next blocks =>
      rw [List.dropLast_cons_cons, List.forall_mem_cons]
      exact ⟨hclosed (List.cons_ne_nil _ _), hrest.isClosed⟩

end Fencing

section First

variable {α : Type} {P : α → Prop} {x y : α} {s t s' t' : List α}

/-- A list is what comes before the first item with a property, and the rest. -/
theorem exists_append_of_first (P : α → Prop) (s : List α) : ∃ before after,
    s = before ++ after ∧ (∀ x ∈ before, ¬P x) ∧ ∀ x, after.head? = some x → P x := by
  induction s with
  | nil => exact ⟨[], [], rfl, fun _ h => absurd h List.not_mem_nil, nofun⟩
  | cons first rest ih =>
    by_cases hfirst : P first
    · exact ⟨[], first :: rest, rfl, fun _ h => absurd h List.not_mem_nil,
        fun x hx => Option.some.inj hx ▸ hfirst⟩
    · obtain ⟨before, after, rfl, hbefore, hafter⟩ := ih
      exact ⟨first :: before, after, rfl, List.forall_mem_cons.2 ⟨hfirst, hbefore⟩, hafter⟩

/-- Equal lists do not differ in what comes before the first item with a property. -/
theorem append_cons_inj_of_first (hs : ∀ x ∈ s, ¬P x) (ht : ∀ x ∈ t, ¬P x) (hx : P x) (hy : P y)
    (h : s ++ x :: s' = t ++ y :: t') : s = t ∧ x = y ∧ s' = t' := by
  induction s generalizing t with
  | nil =>
    cases t with
    | nil => exact ⟨rfl, List.cons.inj h⟩
    | cons first t =>
      rw [List.forall_mem_cons] at ht
      exact absurd ((List.cons.inj h).1 ▸ hx) ht.1
  | cons first s ih =>
    rw [List.forall_mem_cons] at hs
    cases t with
    | nil => exact absurd ((List.cons.inj h).1.symm ▸ hy) hs.1
    | cons second t =>
      rw [List.forall_mem_cons] at ht
      obtain ⟨rfl, hrest⟩ := List.cons.inj h
      obtain ⟨rfl, hlast⟩ := ih hs.2 ht.2 hrest
      exact ⟨rfl, hlast⟩

/-- Neither do lists in which such an item may be missing at the end. -/
theorem append_toList_inj_of_first {last last' : Option α} (hs : ∀ x ∈ s, ¬P x)
    (ht : ∀ x ∈ t, ¬P x) (hlast : ∀ x ∈ last, P x) (hlast' : ∀ x ∈ last', P x)
    (hend : s' ≠ [] → last.isSome = true) (hend' : t' ≠ [] → last'.isSome = true)
    (h : s ++ last.toList ++ s' = t ++ last'.toList ++ t') : s = t ∧ last = last' ∧ s' = t' := by
  rw [List.append_assoc, List.append_assoc] at h
  cases last with
  | none =>
    obtain rfl : s' = [] := by_contra fun hne => Bool.false_ne_true (hend hne)
    cases last' with
    | none =>
      obtain rfl : t' = [] := by_contra fun hne => Bool.false_ne_true (hend' hne)
      exact ⟨by simpa using h, rfl, rfl⟩
    | some y =>
      have hmem : y ∈ s ++ ([] ++ []) := h ▸ List.mem_append_right t List.mem_cons_self
      exact absurd (hlast' y rfl) (hs y (by simpa using hmem))
  | some x =>
    cases last' with
    | none =>
      obtain rfl : t' = [] := by_contra fun hne => Bool.false_ne_true (hend' hne)
      have hmem : x ∈ t ++ ([] ++ []) := h ▸ List.mem_append_right s List.mem_cons_self
      exact absurd (hlast x rfl) (ht x (by simpa using hmem))
    | some y =>
      obtain ⟨rfl, rfl, rfl⟩ := append_cons_inj_of_first hs ht (hlast x rfl) (hlast' y rfl) h
      exact ⟨rfl, rfl, rfl⟩

end First

namespace Fencing

/-- All lines have a cut. -/
theorem exists_isCut (fencing : Fencing) (lines : List Text) :
    ∃ blocks, fencing.IsCut blocks ∧ linesOf blocks = lines := by
  induction hcount : lines.length using Nat.strong_induction_on generalizing lines with
  | _ n ih =>
    subst hcount
    cases lines with
    | nil => exact ⟨[], isCut_nil fencing, rfl⟩
    | cons first rest =>
      by_cases hopens : ∃ fence, fencing.Opens fence first
      · obtain ⟨fence, hopens⟩ := hopens
        obtain ⟨code, after, rfl, hcode, hafter⟩ :=
          exists_append_of_first (fencing.Closes fence) rest
        cases after with
        | nil =>
          refine ⟨[.fenced fence first code none], isCut_cons_iff.2
            ⟨⟨hopens, hcode, nofun⟩, fun hne => absurd rfl hne, isCut_nil fencing⟩, ?_⟩
          rw [linesOf_cons]
          exact List.append_nil _
        | cons closing after =>
          obtain ⟨blocks, hblocks, rfl⟩ := ih _ (by simp; omega) after rfl
          refine ⟨.fenced fence first code (some closing) :: blocks, isCut_cons_iff.2
            ⟨⟨hopens, hcode, fun l hl => ?_⟩, fun _ => rfl, hblocks⟩, ?_⟩
          · exact hafter l hl
          · rw [linesOf_cons]
            simp [Block.lines]
      · obtain ⟨blocks, hblocks, rfl⟩ := ih _ (Nat.lt_succ_self _) rest rfl
        exact ⟨.line first :: blocks, isCut_cons_iff.2
          ⟨fun fence h => hopens ⟨fence, h⟩, fun _ => trivial, hblocks⟩, linesOf_cons _ _⟩

/-- Lines start with one block only. -/
theorem IsBlock.eq_of_append_eq {block other : Block} {s t : List Text}
    (hblock : fencing.IsBlock block) (hother : fencing.IsBlock other)
    (hclosed : s ≠ [] → block.IsClosed) (hotherClosed : t ≠ [] → other.IsClosed)
    (h : block.lines ++ s = other.lines ++ t) : block = other ∧ s = t := by
  cases block with
  | line l =>
    cases other with
    | line m =>
      obtain ⟨rfl, rfl⟩ := List.cons.inj h
      exact ⟨rfl, rfl⟩
    | fenced fence opening code closing =>
      obtain ⟨rfl, -⟩ := List.cons.inj h
      exact absurd hother.1 (hblock fence)
  | fenced fence opening code closing =>
    cases other with
    | line m =>
      obtain ⟨rfl, -⟩ := List.cons.inj h
      exact absurd hblock.1 (hother fence)
    | fenced fence' opening' code' closing' =>
      obtain ⟨rfl, hrest⟩ := List.cons.inj h
      obtain rfl := hblock.1.unique hother.1
      obtain ⟨rfl, rfl, rfl⟩ := append_toList_inj_of_first hblock.2.1 hother.2.1 hblock.2.2
        hother.2.2 hclosed hotherClosed hrest
      exact ⟨rfl, rfl⟩

theorem linesOf_eq_nil_iff : linesOf blocks = [] ↔ blocks = [] := by
  cases blocks with
  | nil => exact ⟨fun _ => rfl, fun _ => rfl⟩
  | cons block blocks => cases block <;> exact ⟨nofun, nofun⟩

/-- Lines have one cut only. -/
theorem IsCut.eq_of_linesOf_eq (h : fencing.IsCut blocks) (hothers : fencing.IsCut others)
    (hlines : linesOf blocks = linesOf others) : blocks = others := by
  induction blocks generalizing others with
  | nil => exact (linesOf_eq_nil_iff.1 hlines.symm).symm
  | cons block blocks ih =>
    cases others with
    | nil => exact linesOf_eq_nil_iff.1 hlines
    | cons other others =>
      rw [isCut_cons_iff] at h hothers
      rw [linesOf_cons, linesOf_cons] at hlines
      obtain ⟨rfl, hrest⟩ := h.1.eq_of_append_eq hothers.1
        (fun hne => h.2.1 (mt linesOf_eq_nil_iff.2 hne))
        (fun hne => hothers.2.1 (mt linesOf_eq_nil_iff.2 hne)) hlines
      rw [ih h.2.2 hothers.2.2 hrest]

/-- The blocks that lines are cut into. -/
noncomputable def cut (fencing : Fencing) (lines : List Text) : List Block :=
  (fencing.exists_isCut lines).choose

theorem isCut_cut (fencing : Fencing) (lines : List Text) : fencing.IsCut (fencing.cut lines) :=
  (fencing.exists_isCut lines).choose_spec.1

theorem linesOf_cut (fencing : Fencing) (lines : List Text) : linesOf (fencing.cut lines) = lines :=
  (fencing.exists_isCut lines).choose_spec.2

/-- The cut of lines is the only one there is. -/
theorem IsCut.eq_cut {lines : List Text} (h : fencing.IsCut blocks) (hlines : linesOf blocks = lines) :
    fencing.cut lines = blocks :=
  (fencing.isCut_cut lines).eq_of_linesOf_eq h ((fencing.linesOf_cut lines).trans hlines.symm)

/-- Blocks stay a cut if those of another one come after them, and none of them is left open. -/
theorem IsCut.append (h : fencing.IsCut blocks) (hothers : fencing.IsCut others)
    (hclosed : others ≠ [] → ∀ block ∈ blocks, block.IsClosed) :
    fencing.IsCut (blocks ++ others) := by
  induction blocks with
  | nil => exact hothers
  | cons block blocks ih =>
    rw [isCut_cons_iff] at h
    rw [List.cons_append, isCut_cons_iff]
    refine ⟨h.1, fun hne => ?_, ih h.2.2 fun hne block hmem =>
      hclosed hne block (List.mem_cons_of_mem _ hmem)⟩
    by_cases hothers : others = []
    · exact h.2.1 (by simpa [hothers] using hne)
    · exact hclosed hothers block List.mem_cons_self

/-- Blocks at the start of a cut that are blocks in another fencing are at the start of the cut
    in that one. -/
theorem IsCut.isPrefix_cut {other : Fencing} {before : List Block} {lines : List Text}
    (h : fencing.IsCut blocks) (hlines : linesOf blocks = lines) (hbefore : before <+: blocks)
    (hother : ∀ block ∈ before, other.IsBlock block) : before <+: other.cut lines := by
  obtain ⟨rest, rfl⟩ := hbefore
  have hall : rest ≠ [] → ∀ block ∈ before, block.IsClosed := by
    intro hne block hblock
    refine h.isClosed block ?_
    rw [List.dropLast_append_of_ne_nil hne]
    exact List.mem_append_left _ hblock
  have hstart : other.IsCut before := by
    refine ⟨hother, fun block hblock => ?_⟩
    by_cases hrest : rest = []
    · rw [hrest, List.append_nil] at h
      exact h.isClosed block hblock
    · exact hall hrest block ((List.dropLast_sublist before).subset hblock)
  have hclosed : other.cut (linesOf rest) ≠ [] → ∀ block ∈ before, block.IsClosed := by
    intro hne
    refine hall fun hrest => hne ?_
    rw [← linesOf_eq_nil_iff, linesOf_cut, hrest]
    rfl
  have hcut := hstart.append (other.isCut_cut (linesOf rest)) hclosed
  rw [hcut.eq_cut]
  · exact List.prefix_append ..
  · rw [← hlines, linesOf_append, linesOf_append, linesOf_cut]

end Fencing

end Marginalia.Heading
