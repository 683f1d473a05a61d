import Marginalia.Proofs.Note.Span

/-!
# Anchoring note by note

Anchoring goes through the pending notes in their order and remembers the lines
of blocks. What it remembers is right (`Memory.IsValid`), so that each note comes
to the fate it would come to alone (`fateOf`). If there is a limit to how deep
searches are nested, they may be beyond it; nothing else changes.

* `spanWith_eq`: remembering the lines of blocks changes nothing;
* `spanWith_agrees`: nor does a limit, but that a search may be beyond it, which then
  is for the lines of a note in more notes than that (`IsSunk`);
* `anchor_eq`, `anchor_agrees`: anchoring gives the fate of each note, unless a search
  is beyond the limit.
-/

namespace Marginalia.Note

variable {roles : Array Role} {blocks : List Pending} {note : Pending} {limit : Option Nat}

/-! ## Remembering the lines of blocks -/

/-- The lines of a note depend on its form and on the lines of its markers. -/
theorem span_congr {other : Pending} (hform : note.form = other.form)
    (hopened : note.opened = other.opened) (hclosed : note.closed = other.closed) :
    span roles blocks note = span roles blocks other := by
  have henclosing : note.enclosing? blocks = other.enclosing? blocks := by
    have : note.isInside = other.isInside := by
      funext block
      rw [Pending.isInside, Pending.isInside, hopened, hclosed]
    rw [Pending.enclosing?, Pending.enclosing?, this]
  have hown : ∀ around, ownSpan roles note around = ownSpan roles other around := by
    intro around
    rw [ownSpan, ownSpan, hform, hopened, hclosed]
  by_cases hinline : note.form = .inline
  · rw [span_inline hinline, span_inline (hform ▸ hinline), hopened]
  have hinline' : other.form ≠ .inline := hform ▸ hinline
  cases h : note.enclosing? blocks with
  | none =>
    rw [span_outermost hinline h, span_outermost hinline' (henclosing ▸ h), hown]
  | some around =>
    rw [span_enclosed hinline h, span_enclosed hinline' (henclosing ▸ h), hown]

/-- What is remembered of a block is the lines of it. -/
def Memory.IsValid (roles : Array Role) (blocks : List Pending) (memory : Memory) : Prop :=
  ∀ (block : Pending) (found : Option Span), block.form = .block →
    memory.lookup (block.opened, block.closed) = some found → span roles blocks block = .ok found

theorem Memory.isValid_nil : Memory.IsValid roles blocks [] := by
  intro _ _ _ h
  cases h

theorem Memory.IsValid.cons {memory : Memory} {found : Option Span}
    (h : Memory.IsValid roles blocks memory) (hform : note.form = .block)
    (hfound : span roles blocks note = .ok found) :
    Memory.IsValid roles blocks (((note.opened, note.closed), found) :: memory) := by
  intro block found' hblock hlookup
  rw [List.lookup_cons] at hlookup
  split at hlookup
  · rename_i heq
    obtain ⟨hopened, hclosed⟩ := Prod.mk.inj (eq_of_beq heq)
    rw [span_congr (hblock.trans hform.symm) hopened hclosed, hfound, Option.some.inj hlookup]
  · exact h block found' hblock hlookup

theorem Memory.IsValid.keep {memory : Memory} {found : Option Span}
    (h : Memory.IsValid roles blocks memory) (hfound : span roles blocks note = .ok found) :
    Memory.IsValid roles blocks (memory.keep note found).2 := by
  rw [Memory.keep]
  split
  next hform => exact h.cons hform hfound
  · exact h

/-- What is remembered of a note is the lines of it. -/
theorem Memory.IsValid.known? {memory : Memory} {known : Option Span}
    (h : Memory.IsValid roles blocks memory) (hknown : memory.known? note = some known) :
    span roles blocks note = .ok known := by
  rw [Memory.known?] at hknown
  split at hknown
  next hform => exact h note known hform hknown
  · cases hknown

section Search

variable {memory : Memory} {around : Pending}

theorem spanWith_inline (hform : note.form = .inline) :
    spanWith roles blocks limit memory note = .ok (some (.single note.opened), memory) := by
  rw [spanWith, if_pos hform]
  rfl

theorem spanWith_known {known : Option Span} (hform : note.form ≠ .inline)
    (hknown : memory.known? note = some known) :
    spanWith roles blocks limit memory note = .ok (known, memory) := by
  rw [spanWith, if_neg hform, hknown]
  rfl

theorem spanWith_outermost (hform : note.form ≠ .inline) (hknown : memory.known? note = none)
    (h : note.enclosing? blocks = none) :
    spanWith roles blocks limit memory note = memory.keep note <$> ownSpan roles note none := by
  rw [spanWith, if_neg hform, hknown]
  dsimp only
  split
  · cases ownSpan roles note none <;> rfl
  · rename_i h'
    cases h.symm.trans h'

theorem spanWith_enclosed (hform : note.form ≠ .inline) (hknown : memory.known? note = none)
    (h : note.enclosing? blocks = some around) :
    spanWith roles blocks limit memory note = (do
      match ← ownSpan roles note (some around) with
      | some own => return memory.keep note own
      | none =>
        let (outer, memory) ← spanWith roles blocks (← nested limit) memory around
        return memory.keep note (inherited around outer)) := by
  rw [spanWith, if_neg hform, hknown]
  dsimp only
  split
  · rename_i h'
    cases h.symm.trans h'
  · rename_i h'
    obtain rfl := Option.some.inj (h.symm.trans h')
    rfl

end Search

/-- The lines of a note, and the memory with the lines of the blocks met on the
    way to them. -/
theorem spanWith_eq {memory : Memory} (h : Memory.IsValid roles blocks memory) (note : Pending) :
    ∃ memory', Memory.IsValid roles blocks memory' ∧
      spanWith roles blocks none memory note = (·, memory') <$> span roles blocks note := by
  -- Whatever the lines are, they are kept.
  have hkeep : ∀ {memory : Memory} (note : Pending), Memory.IsValid roles blocks memory →
      ∃ memory', Memory.IsValid roles blocks memory' ∧
        memory.keep note <$> span roles blocks note = (·, memory') <$> span roles blocks note := by
    intro memory note h
    cases hspan : span roles blocks note with
    | error fault => exact ⟨memory, h, rfl⟩
    | ok found => exact ⟨_, h.keep hspan, rfl⟩
  -- The note around a note has fewer blocks before it.
  induction hn : note.blocksBefore blocks using Nat.strongRecOn generalizing note with
  | ind n ih =>
    by_cases hform : note.form = .inline
    · exact ⟨memory, h, by rw [spanWith_inline hform, span_inline hform]; rfl⟩
    cases hknown : memory.known? note with
    | some known => exact ⟨memory, h, by rw [spanWith_known hform hknown, h.known? hknown]; rfl⟩
    | none =>
      cases henclosing : note.enclosing? blocks with
      | none =>
        rw [spanWith_outermost hform hknown henclosing, ← span_outermost hform henclosing]
        exact hkeep note h
      | some around =>
        -- It is asked for, and remembered, only if the note finds no lines itself.
        obtain ⟨memory₁, h₁, houter⟩ := ih (around.blocksBefore blocks)
          (hn ▸ Pending.blocksBefore_lt_of_enclosing? henclosing) around rfl
        have hspan := @span_enclosed roles blocks note around hform henclosing
        rw [spanWith_enclosed hform hknown henclosing]
        cases hown : ownSpan roles note (some around) with
        | error fault =>
          rw [hown] at hspan
          exact ⟨memory, h, by rw [hspan]; rfl⟩
        | ok own =>
          rw [hown, ok_bind] at hspan
          rw [ok_bind]
          cases own with
          | some own =>
            obtain ⟨memory', h', heq⟩ := hkeep note h
            rw [hspan] at heq
            exact ⟨memory', h', by rw [hspan]; exact heq⟩
          | none =>
            obtain ⟨memory', h', heq⟩ := hkeep note h₁
            refine ⟨memory', h', ?_⟩
            rw [hspan] at heq ⊢
            rw [← heq]
            dsimp only [nested]
            rw [ok_bind, houter]
            cases span roles blocks around <;> rfl

/-! ## Searches within searches -/

/-- The note is in so many others, each in the next, and neither it nor any of these
    but the last finds lines by itself. -/
inductive IsSunk (roles : Array Role) (blocks : List Pending) : Nat → Pending → Prop
  | surface {note : Pending} : IsSunk roles blocks 0 note
  | deeper {n : Nat} {note around : Pending} : note.form ≠ .inline →
      note.enclosing? blocks = some around → ownSpan roles note (some around) = .ok none →
      IsSunk roles blocks n around → IsSunk roles blocks (n + 1) note

/-- The search for the lines of the note has searches nested in it that are deeper than
    the limit. -/
def Pending.IsBeyond (roles : Array Role) (blocks : List Pending) (limit : Option Nat)
    (note : Pending) : Prop :=
  ∃ n, limit = some n ∧ IsSunk roles blocks (n + 1) note

/-- A note around kept lines needs no other note to find its lines. -/
theorem Pending.not_isBeyond_of_encloses {line : Int} (hblocks : ∀ b ∈ blocks, b.IsPlaced roles)
    (hnote : note.IsPlaced roles) (hline : note.Encloses roles line) :
    ¬note.IsBeyond roles blocks limit := by
  rintro ⟨n, -, hsunk⟩
  cases hsunk with
  | @deeper _ _ around hform haround hown _ =>
    have hbound : searchEnd roles (some around) ≤ roles.size :=
      Int.le_of_lt (hblocks around (mem_of_enclosing? haround).1).closed_lt
    obtain ⟨found, hfound, hfinds⟩ := exists_ownSpan hnote hform hbound
    obtain rfl := Except.ok.inj (hown.symm.trans hfound)
    cases hfinds with
    | nothing hnone => exact hnone line hline

/-- Searches that are nested too deeply are so for this note. -/
def IsTooDeep (roles : Array Role) (blocks : List Pending) (limit : Option Nat) (note : Pending)
    (fault : Fault) : Prop :=
  fault = .tooDeep ∧ note.IsBeyond roles blocks limit

theorem IsTooDeep.of_nested_eq_error {fault : Fault} {around : Pending}
    (h : nested limit = .error fault) (hinline : note.form ≠ .inline)
    (henclosing : note.enclosing? blocks = some around)
    (hown : ownSpan roles note (some around) = .ok none) :
    IsTooDeep roles blocks limit note fault := by
  match limit, h with
  | some 0, h =>
    exact ⟨(Except.error.inj h).symm, 0, rfl, .deeper hinline henclosing hown .surface⟩

/-- What is too deep in a nested search is so in the one it is nested in. -/
theorem IsTooDeep.of_nested_eq_ok {fault : Fault} {around : Pending} {rest : Option Nat}
    (h : IsTooDeep roles blocks rest around fault) (hnested : nested limit = .ok rest)
    (hinline : note.form ≠ .inline) (henclosing : note.enclosing? blocks = some around)
    (hown : ownSpan roles note (some around) = .ok none) :
    IsTooDeep roles blocks limit note fault := by
  obtain ⟨hfault, n, rfl, hsunk⟩ := h
  match limit, hnested with
  | some (m + 1), hnested =>
    obtain rfl := Option.some.inj (Except.ok.inj hnested)
    exact ⟨hfault, m + 1, rfl, .deeper hinline henclosing hown hsunk⟩

/-- A limit changes nothing but that a search may be beyond it. -/
theorem spanWith_agrees (limit : Option Nat) (memory : Memory) (note : Pending) :
    AgreesUnless (IsTooDeep roles blocks limit note) (spanWith roles blocks limit memory note)
      (spanWith roles blocks none memory note) := by
  induction hn : note.blocksBefore blocks using Nat.strongRecOn generalizing limit note with
  | ind n ih =>
    by_cases hform : note.form = .inline
    · rw [spanWith_inline hform, spanWith_inline hform]
      exact .refl _
    cases hknown : memory.known? note with
    | some known =>
      rw [spanWith_known hform hknown, spanWith_known hform hknown]
      exact .refl _
    | none =>
      cases henclosing : note.enclosing? blocks with
      | none =>
        rw [spanWith_outermost hform hknown henclosing, spanWith_outermost hform hknown henclosing]
        exact .refl _
      | some around =>
        rw [spanWith_enclosed hform hknown henclosing, spanWith_enclosed hform hknown henclosing]
        refine (AgreesUnless.refl _).bind fun own hown => ?_
        cases own with
        | some own => exact .refl _
        | none =>
          dsimp only
          rw [show nested none = .ok none from rfl, ok_bind]
          cases hnested : nested limit with
          | error fault => exact .of_error (.of_nested_eq_error hnested hform henclosing hown)
          | ok rest =>
            rw [ok_bind]
            have houter := ih (around.blocksBefore blocks)
              (hn ▸ Pending.blocksBefore_lt_of_enclosing? henclosing) rest around rfl
            exact (houter.mono fun fault hdeep =>
              hdeep.of_nested_eq_ok hnested hform henclosing hown).bind fun _ _ => .refl _

/-! ## The fate of a note -/

/-- A pending note and the note it becomes, unless it is dropped. -/
structure Fate where
  pending : Pending
  note : Option Note
  deriving DecidableEq, Repr

/-- The orphan that a dropped note is. -/
def Fate.orphan? (fate : Fate) : Option Orphan :=
  if fate.note.isNone then some ⟨fate.pending.opened⟩ else none

/-- What becomes of a pending note by itself. -/
def fateOf (roles : Array Role) (blocks : List Pending) (display : Display) (pending : Pending) :
    Except Fault Fate := do
  match ← span roles blocks pending with
  | none => return ⟨pending, none⟩
  | some span => return ⟨pending, some (← place display pending span)⟩

/-- The notes and the orphans of some fates. -/
def sortFates (fates : List Fate) : List Note × List Orphan :=
  (fates.filterMap (·.note), fates.filterMap (·.orphan?))

theorem settle_eq {display : Display} {memory : Memory} (h : Memory.IsValid roles blocks memory)
    (pending : List Pending) :
    settle roles blocks display none memory pending =
      sortFates <$> pending.mapM (fateOf roles blocks display) := by
  induction pending generalizing memory with
  | nil => rfl
  | cons pending rest ih =>
    obtain ⟨memory', h', heq⟩ := spanWith_eq h pending
    rw [settle, heq, List.mapM_cons, fateOf]
    cases hspan : span roles blocks pending with
    | error fault => rfl
    | ok found =>
      cases found with
      | none =>
        simp only [bind, Except.bind, Functor.map, Except.map, pure, Except.pure, ih h']
        cases rest.mapM (fateOf roles blocks display) <;> rfl
      | some span =>
        simp only [bind, Except.bind, Functor.map, Except.map, pure, Except.pure, ih h']
        cases place display pending span with
        | error fault => rfl
        | ok note => cases rest.mapM (fateOf roles blocks display) <;> rfl

/-- The searches for the lines of one of the notes are nested too deeply. -/
def AreTooDeep (roles : Array Role) (blocks : List Pending) (limit : Option Nat)
    (pending : List Pending) (fault : Fault) : Prop :=
  ∃ note ∈ pending, IsTooDeep roles blocks limit note fault

theorem settle_agrees (limit : Option Nat) (display : Display) (memory : Memory)
    (pending : List Pending) :
    AgreesUnless (AreTooDeep roles blocks limit pending)
      (settle roles blocks display limit memory pending)
      (settle roles blocks display none memory pending) := by
  induction pending generalizing memory with
  | nil => exact .refl _
  | cons pending rest ih =>
    have hlater {fault : Fault} : AreTooDeep roles blocks limit rest fault →
        AreTooDeep roles blocks limit (pending :: rest) fault :=
      fun ⟨note, hnote, hdeep⟩ => ⟨note, List.mem_cons_of_mem _ hnote, hdeep⟩
    rw [settle, settle]
    refine ((spanWith_agrees limit memory pending).mono fun fault hdeep =>
      ⟨pending, List.mem_cons_self, hdeep⟩).bind fun answer _ => ?_
    obtain ⟨found, memory'⟩ := answer
    have hrest := (ih memory').mono fun _ => hlater
    cases found with
    | none => exact hrest.bind fun _ _ => .refl _
    | some span =>
      exact (AgreesUnless.refl _).bind fun note _ => hrest.bind fun _ _ => .refl _

/-- Anchoring gives the fate of each pending note. -/
theorem anchor_eq (pending : List Pending) (readings : List Reading) (display : Display) :
    anchor pending readings display =
      sortFates <$> pending.mapM (fateOf (readings.map (·.role)).toArray
        (pending.filter (·.form == .block)) display) :=
  settle_eq Memory.isValid_nil pending

/-- A limit changes nothing but that searches may be beyond it. -/
theorem anchor_agrees (pending : List Pending) (readings : List Reading) (display : Display)
    (limit : Option Nat) :
    AgreesUnless (AreTooDeep (readings.map (·.role)).toArray (pending.filter (·.form == .block))
        limit pending)
      (anchor pending readings display limit) (anchor pending readings display) :=
  settle_agrees limit display [] pending

theorem settle_congr {display display' : Display} (hkept : display.kept = display'.kept)
    {memory : Memory} (pending : List Pending) :
    settle roles blocks display limit memory pending =
      settle roles blocks display' limit memory pending := by
  have hplace : place display = place display' := by
    funext note span
    simp only [place, positionOf, Display.position?, hkept]
  induction pending generalizing memory with
  | nil => rfl
  | cons pending rest ih => simp only [settle, ih, hplace]

/-- Anchoring looks at what the lines are and at the numbers of the displayed ones. -/
theorem anchor_congr {pending : List Pending} {readings readings' : List Reading}
    {display display' : Display} (hroles : readings.map (·.role) = readings'.map (·.role))
    (hkept : display.kept = display'.kept) :
    anchor pending readings display limit = anchor pending readings' display' limit := by
  rw [anchor, anchor, hroles, settle_congr hkept]

end Marginalia.Note
