import Marginalia.Proofs.Note.Embedding

/-!
# Lines at the beginning of a longer text

A note whose text stands at the beginning of a longer one may find lines past the end
of its text, where it found none or where its last paragraph went on to the end. It
stays where it starts, and unless it lies past its markers, also where it ends
(`Span.Extends`). The second is what keeps the notes inside it where they are: those
that find no lines by themselves are on its last line.

* `ownSpan_extends`: what a note with no note around it finds;
* `exists_span_extends`: the lines of a note at the beginning of a longer text.
-/

namespace Marginalia.Note

variable {roles more : Array Role} {line : Int} {count : Nat} {note around : Pending}
  {blocks later : List Pending} {found : Option Span}

theorem LineIs.append {test : Role → Bool} (h : LineIs test roles line) (more : Array Role) :
    LineIs test (roles ++ more) line := by
  obtain ⟨i, role, rfl, hi, hrole⟩ := h
  exact ⟨i, role, rfl, embeds_append_left roles more i role hi, hrole⟩

theorem Pending.IsPlaced.append (h : note.IsPlaced roles) (more : Array Role) :
    note.IsPlaced (roles ++ more) where
  opened_nonneg := h.opened_nonneg
  opened_le_closed := h.opened_le_closed
  closed_lt := by
    have := h.closed_lt
    rw [Array.size_append]
    omega
  of_ne_block := h.of_ne_block
  of_inline hform := (h.of_inline hform).append more

/-- The lines of a note that may find more of them past its markers: only its last
    line may move, and only if all its lines are there. -/
structure Span.Extends (note : Pending) (span span' : Span) : Prop where
  first : span'.first = span.first
  last : span'.last = span.last ∨ note.closed < span.first

/-- A note that was on some lines is on these, perhaps with more of them past its
    markers. -/
def Extends (note : Pending) (found found' : Option Span) : Prop :=
  ∀ span, found = some span → ∃ span', found' = some span' ∧ span.Extends note span'

theorem Extends.refl (note : Pending) (found : Option Span) : Extends note found found :=
  fun span hspan => ⟨span, hspan, rfl, .inl rfl⟩

/-- What a search finds it finds before any later end as well. -/
theorem nextContent_mono {next : Int} {count' : Nat} (hle : count ≤ count')
    (h : nextContent roles line count = .ok (some next)) :
    nextContent roles line count' = .ok (some next) := by
  induction count generalizing line count' with
  | zero => cases h
  | succ count ih =>
    obtain ⟨count', rfl⟩ := Nat.exists_eq_add_one_of_ne_zero (show count' ≠ 0 by omega)
    obtain ⟨role, hrole, h⟩ := bind_eq_ok.1 h
    refine bind_eq_ok.2 ⟨role, hrole, ?_⟩
    split at h
    · rename_i hcontent
      rw [if_pos hcontent]
      exact h
    · rename_i hcontent
      rw [if_neg hcontent]
      exact ih (by omega) h

theorem nextContent_append {next : Int} (more : Array Role) (h0 : 0 ≤ line)
    (h : nextContent roles line (linesUpTo line roles.size) = .ok (some next)) :
    nextContent (roles ++ more) line (linesUpTo line (roles ++ more).size) = .ok (some next) := by
  have hle : linesUpTo line roles.size ≤ linesUpTo line (roles ++ more).size := by
    rw [Array.size_append]
    unfold linesUpTo
    omega
  have hsame := (embeds_append_left roles more).nextContent h0 h
  rw [Int.natCast_zero, Int.add_zero] at hsame
  exact nextContent_mono hle (by simpa using hsame)

/-- A paragraph found past a line starts where it did. -/
theorem paragraphAfter_append {span : Span} (h0 : 0 ≤ line)
    (h : paragraphAfter roles line roles.size = .ok (some span))
    (h' : paragraphAfter (roles ++ more) line (roles ++ more).size = .ok found) :
    ∃ span', found = some span' ∧ span'.first = span.first ∧ line < span.first := by
  obtain ⟨next, hnext, h⟩ := bind_eq_ok.1 h
  obtain ⟨next', hnext', h'⟩ := bind_eq_ok.1 h'
  cases next with
  | none => cases h
  | some start =>
    obtain rfl := Except.ok.inj ((nextContent_append more (by omega) hnext).symm.trans hnext')
    obtain ⟨last, _, h⟩ := bind_eq_ok.1 h
    obtain ⟨last', _, h'⟩ := bind_eq_ok.1 h'
    obtain rfl := Option.some.inj (Except.ok.inj h)
    obtain rfl := Except.ok.inj h'
    exact ⟨_, rfl, rfl, Int.lt_of_add_one_le (le_of_nextContent hnext)⟩

/-- A note with no note around it stays where it starts. -/
theorem ownSpan_extends (more : Array Role) (hnote : note.IsPlaced roles)
    (hform : note.form ≠ .inline) (h : ownSpan roles note none = .ok found) :
    ∃ found', ownSpan (roles ++ more) note none = .ok found' ∧ Extends note found found' := by
  have hbound : searchEnd (roles ++ more) none ≤ (roles ++ more).size := Int.le_refl _
  obtain ⟨found', hfound', _⟩ := exists_ownSpan (hnote.append more) hform hbound
  refine ⟨found', hfound', ?_⟩
  have ho := hnote.opened_nonneg
  have hc := Int.le_trans ho hnote.opened_le_closed
  rintro span rfl
  cases hf : note.form with
  | inline => exact absurd hf hform
  | line =>
    rw [ownSpan_line hf] at h hfound'
    obtain ⟨next, hnext, hspan⟩ := map_eq_ok.1 h
    obtain ⟨next, rfl, rfl⟩ := Option.map_eq_some_iff.1 hspan
    obtain ⟨next', hnext', rfl⟩ := map_eq_ok.1 hfound'
    obtain rfl := Except.ok.inj ((nextContent_append more (by omega) hnext).symm.trans hnext')
    exact ⟨_, rfl, rfl, .inl rfl⟩
  | block =>
    rw [ownSpan_block_eq hf] at h hfound'
    obtain ⟨enclosed, henclosed, h⟩ := bind_eq_ok.1 h
    obtain ⟨enclosed', henclosed', hfound'⟩ := bind_eq_ok.1 hfound'
    have hsame := (embeds_append_left roles more).keptLines (by omega) henclosed
    simp only [Int.natCast_zero, Int.add_zero, List.map_id'] at hsame
    obtain rfl := Except.ok.inj (hsame.symm.trans henclosed')
    cases hkept : Span.ofLines? enclosed with
    | some kept =>
      rw [hkept] at h hfound'
      obtain rfl := Option.some.inj (Except.ok.inj h)
      obtain rfl := Except.ok.inj hfound'
      exact Extends.refl note _ _ rfl
    | none =>
      rw [hkept] at h hfound'
      obtain ⟨span', rfl, hfirst, hpast⟩ := paragraphAfter_append hc h hfound'
      exact ⟨span', rfl, hfirst, .inr hpast⟩

theorem Extends.inherited {outer outer' : Option Span} (h : Extends around outer outer')
    (hclosed : note.closed < around.closed) :
    Extends note (inherited around outer) (inherited around outer') := by
  intro span hspan
  cases outer with
  | none => cases hspan
  | some outer =>
    obtain ⟨outer', rfl, hfirst, hlast⟩ := h outer rfl
    by_cases hpast : around.closed < outer.first
    · rw [Note.inherited, if_pos hpast] at hspan
      obtain rfl := Option.some.inj hspan
      refine ⟨outer', by rw [Note.inherited, hfirst, if_pos hpast], hfirst, .inr ?_⟩
      omega
    · rw [Note.inherited, if_neg hpast] at hspan
      obtain rfl := Option.some.inj hspan
      have hlast := hlast.resolve_right hpast
      refine ⟨.single outer.last, ?_, rfl, .inl rfl⟩
      rw [Note.inherited, hfirst, if_neg hpast, hlast]

/-- A note at the beginning of a longer text stays where it starts. -/
theorem exists_span_extends (more : Array Role) (hblocks : ∀ block ∈ blocks, block.IsPlaced roles)
    (hlater : ∀ block ∈ later, (roles.size : Int) ≤ block.opened) (hnote : note.IsPlaced roles)
    (h : span roles blocks note = .ok found) :
    ∃ found', span (roles ++ more) (blocks ++ later) note = .ok found' ∧
      Extends note found found' := by
  have henclosing : ∀ {note : Pending}, note.IsPlaced roles →
      note.enclosing? (blocks ++ later) = note.enclosing? blocks := by
    intro note hnote
    have hnone : later.filter note.isInside = [] := by
      refine Pending.filter_isInside_eq_nil fun block hb => .inl ?_
      calc note.opened ≤ note.closed := hnote.opened_le_closed
        _ ≤ roles.size := Int.le_of_lt hnote.closed_lt
        _ ≤ block.opened := hlater block hb
    rw [Pending.enclosing?, List.filter_append, hnone, List.append_nil, Pending.enclosing?]
  -- The note around a note has fewer blocks before it.
  induction hn : note.blocksBefore blocks using Nat.strongRecOn generalizing note found with
  | ind n ih =>
    by_cases hform : note.form = .inline
    · rw [span_inline hform] at h
      obtain rfl := Except.ok.inj h
      exact ⟨_, span_inline hform, Extends.refl note _⟩
    have hsame := henclosing hnote
    cases haround : note.enclosing? blocks with
    | none =>
      rw [span_outermost hform haround] at h
      rw [span_outermost hform (hsame.trans haround)]
      exact ownSpan_extends more hnote hform h
    | some around =>
      rw [span_enclosed hform haround] at h
      rw [span_enclosed hform (hsame.trans haround)]
      obtain ⟨own, hown, h⟩ := bind_eq_ok.1 h
      have hbound : searchEnd (roles ++ more) (some around) = searchEnd roles (some around) + 0 :=
        (Int.add_zero _).symm
      have hown' : ownSpan (roles ++ more) note (some around) = .ok own := by
        simpa using (embeds_append_left roles more).ownSpan hnote hform hbound hown
      cases own with
      | some own =>
        obtain rfl := Except.ok.inj h
        exact ⟨_, bind_eq_ok.2 ⟨_, hown', rfl⟩, Extends.refl note _⟩
      | none =>
        obtain ⟨outer, houter, h⟩ := bind_eq_ok.1 h
        obtain rfl := Except.ok.inj h
        obtain ⟨hmem, _, hclosed⟩ := mem_of_enclosing? haround
        obtain ⟨outer', houter', hextends⟩ :=
          ih _ (hn ▸ Pending.blocksBefore_lt_of_enclosing? haround) (hblocks _ hmem) houter rfl
        exact ⟨_, bind_eq_ok.2 ⟨_, hown', bind_eq_ok.2 ⟨_, houter', rfl⟩⟩,
          hextends.inherited hclosed⟩

end Marginalia.Note
