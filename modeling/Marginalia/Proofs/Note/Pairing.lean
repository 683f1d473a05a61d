import Marginalia.Note.Pairing
import Marginalia.Proofs.Result

/-!
# What a line does to the notes

A line takes a pairing to the next one in one of six ways (`Step`), and in no
other (`apply_eq_ok_iff`). What each of these keeps, the reading of any lines
keeps (`Run.invariant`), as long as they come in the order of their numbers.

* `Run.isWritten`: an open note has its opening marker among the lines read, and
  a closed one also its closing marker, on a later line; a note of a single line
  has that line.
-/

namespace Marginalia.Note.Pairing

/-- A closing marker with this id closes the draft, the open notes opened after
    it being `above`: the innermost one without an id, the innermost one of its id
    with one. -/
def Closes (id : Option Text) (above : List Draft) (draft : Draft) : Prop :=
  match id with
  | none => above = []
  | some name => draft.id = some name ∧ ∀ other ∈ above, other.id ≠ some name

/-- What the line of that number does to the open and the closed notes. -/
inductive Step : Pairing → Int → Role → Pairing → Prop
  | plain {p : Pairing} {line : Int} {shown : Text} : Step p line (.plain shown none) p
  | remark {p : Pairing} {line : Int} {shown : Text} {remark : Remark} :
    Step p line (.plain shown (some remark))
      (p.add (p.single .inline line remark.text remark.column))
  | opening {p : Pairing} {line : Int} {id : Option Text} {words : Text} :
    (∀ name, id = some name → ∀ draft ∈ p.stack, draft.id ≠ some name) →
      Step p line (.opening id words) { p with stack := ⟨id, line, p.depth, words, []⟩ :: p.stack }
  | closing {above below : List Draft} {draft : Draft} {closed : List Pending} {line : Int}
    {id : Option Text} : Closes id above draft →
      Step ⟨above ++ draft :: below, closed⟩ line (.closing id)
        ⟨above ++ below, closed ++ [draft.close line]⟩
  | body {below : List Draft} {draft : Draft} {closed : List Pending} {line : Int} {text : Text} :
    Step ⟨draft :: below, closed⟩ line (.body text)
      ⟨{ draft with body := draft.body ++ [text] } :: below, closed⟩
  | note {p : Pairing} {line : Int} {text : Text} :
    Step p line (.note text) (p.add (p.single .line line text none))

variable {p q : Pairing} {line : Int}

theorem openNote_eq_ok_iff {id : Option Text} {words : Text} :
    p.openNote line id words = .ok q ↔ Step p line (.opening id words) q := by
  constructor
  · intro h
    cases id with
    | none =>
      obtain rfl := Except.ok.inj h
      exact .opening fun name hname => nomatch hname
    | some name =>
      simp only [openNote] at h
      split at h
      · cases h
      · rename_i hfree
        obtain rfl := Except.ok.inj h
        refine .opening fun name' hname draft hdraft hid => hfree ?_
        obtain rfl := Option.some.inj hname
        exact List.any_eq_true.2 ⟨draft, hdraft, by rw [hid, beq_self_eq_true]⟩
  · intro h
    cases h with
    | opening hfree =>
      cases id with
      | none => rfl
      | some name =>
        simp only [openNote]
        rw [if_neg]
        · rfl
        · rw [List.any_eq_true]
          rintro ⟨draft, hdraft, hid⟩
          exact hfree name rfl draft hdraft (eq_of_beq hid)

theorem find?_eq_some_iff_closes {name : Text} {stack : List Draft} {draft : Draft} :
    stack.find? (·.id == some name) = some draft ↔
      ∃ above below, stack = above ++ draft :: below ∧ Closes (some name) above draft := by
  rw [List.find?_eq_some_iff_append]
  constructor
  · rintro ⟨hid, above, below, hstack, habove⟩
    exact ⟨above, below, hstack, eq_of_beq hid, fun other hother => by simpa using habove other hother⟩
  · rintro ⟨above, below, hstack, hid, habove⟩
    exact ⟨beq_iff_eq.2 hid, above, below, hstack, fun other hother => by
      simpa using habove other hother⟩

theorem eraseP_of_closes {name : Text} {above : List Draft} {draft : Draft}
    (h : Closes (some name) above draft) (below : List Draft) :
    (above ++ draft :: below).eraseP (·.id == some name) = above ++ below := by
  have hid : (draft.id == some name) = true := beq_iff_eq.2 h.1
  rw [List.eraseP_append_right _ fun other hother => by simpa using h.2 other hother,
    List.eraseP_cons, hid, cond_true]

theorem closeNote_eq_ok_iff {id : Option Text} :
    p.closeNote line id = .ok q ↔ Step p line (.closing id) q := by
  obtain ⟨stack, closed⟩ := p
  constructor
  · intro h
    cases stack with
    | nil => cases h
    | cons top rest =>
      cases id with
      | none =>
        obtain rfl := Except.ok.inj h
        have hcloses : Closes none [] top := rfl
        exact .closing hcloses
      | some name =>
        simp only [closeNote] at h
        split at h
        · cases h
        · rename_i draft hfind
          obtain rfl := Except.ok.inj h
          obtain ⟨above, below, hstack, hcloses⟩ := find?_eq_some_iff_closes.1 hfind
          rw [hstack, eraseP_of_closes hcloses]
          exact .closing hcloses
  · intro h
    cases h with
    | @closing above below draft _ _ _ hcloses =>
      cases id with
      | none =>
        obtain rfl : above = [] := hcloses
        rfl
      | some name =>
        have hfind := find?_eq_some_iff_closes.2 ⟨above, below, rfl, hcloses⟩
        have herase := eraseP_of_closes hcloses below
        obtain ⟨top, rest, hstack⟩ := List.exists_cons_of_ne_nil
          (List.append_ne_nil_of_right_ne_nil above (List.cons_ne_nil draft below))
        rw [hstack] at hfind herase ⊢
        simp only [closeNote, hfind, herase]
        rfl

/-- A line has an effect exactly if it is one of these steps. -/
theorem apply_eq_ok_iff {role : Role} : p.apply line role = .ok q ↔ Step p line role q := by
  cases role with
  | plain shown remark =>
    cases remark with
    | none => exact ⟨fun h => Except.ok.inj h ▸ .plain, fun h => by cases h; rfl⟩
    | some remark => exact ⟨fun h => Except.ok.inj h ▸ .remark, fun h => by cases h; rfl⟩
  | opening id words => exact openNote_eq_ok_iff
  | closing id => exact closeNote_eq_ok_iff
  | body text =>
    refine ⟨fun h => ?_, fun h => by cases h; rfl⟩
    obtain ⟨stack, closed⟩ := p
    cases stack with
    | nil => cases h
    | cons draft below => exact Except.ok.inj h ▸ .body
  | note text => exact ⟨fun h => Except.ok.inj h ▸ .note, fun h => by cases h; rfl⟩

/-! ## Runs -/

/-- What the lines read one after the other do. -/
inductive Run : Pairing → List Reading → Pairing → Prop
  | nil {p : Pairing} : Run p [] p
  | cons {p p' q : Pairing} {reading : Reading} {readings : List Reading} :
    Step p reading.line.number reading.role p' → Run p' readings q →
      Run p (reading :: readings) q

/-- The lines come in the order of their numbers. -/
def Ordered (readings : List Reading) : Prop :=
  readings.Pairwise fun a b => a.line.number < b.line.number

/-- What every line keeps, given that the lines read before it have smaller
    numbers, is kept by all lines. -/
theorem Run.invariant {I : List Reading → Pairing → Prop}
    (step : ∀ {done p reading q}, I done p → (∀ r ∈ done, r.line.number < reading.line.number) →
      Step p reading.line.number reading.role q → I (done ++ [reading]) q)
    {p q : Pairing} {done readings : List Reading} (h : Run p readings q)
    (ho : Ordered (done ++ readings)) (hp : I done p) : I (done ++ readings) q := by
  induction h generalizing done with
  | nil => rwa [List.append_nil]
  | @cons p p' q reading readings hstep _ ih =>
    have hbefore : ∀ r ∈ done, r.line.number < reading.line.number := fun r hr =>
      (List.pairwise_append.1 ho).2.2 r hr reading List.mem_cons_self
    rw [List.append_cons] at ho ⊢
    exact ih ho (step hp hbefore hstep)

end Pairing

/-! ## Where notes are written -/

/-- The note is written on these lines: between its markers, on a line of its own
    or after the code of a line. -/
inductive Pending.IsWritten (readings : List Reading) : Pending → Prop
  | block {opener closer : Reading} {id id' : Option Text} {words text : Text} {depth : Int} :
    opener ∈ readings → closer ∈ readings → opener.role = .opening id words →
      closer.role = .closing id' → opener.line.number < closer.line.number →
      IsWritten readings
        ⟨.block, opener.line.number, closer.line.number, text, id, depth, none⟩
  | line {reading : Reading} {text : Text} {depth : Int} :
    reading ∈ readings → reading.role = .note text →
      IsWritten readings
        ⟨.line, reading.line.number, reading.line.number, text, none, depth, none⟩
  | inline {reading : Reading} {shown : Text} {remark : Remark} {depth : Int} :
    reading ∈ readings → reading.role = .plain shown (some remark) →
      IsWritten readings ⟨.inline, reading.line.number, reading.line.number, remark.text, none,
        depth, remark.column⟩

theorem Pending.IsWritten.mono {readings more : List Reading} {note : Pending}
    (h : note.IsWritten readings) (hsub : readings ⊆ more) : note.IsWritten more := by
  cases h with
  | block ho hc => exact .block (hsub ho) (hsub hc) ‹_› ‹_› ‹_›
  | line hr => exact .line (hsub hr) ‹_›
  | inline hr => exact .inline (hsub hr) ‹_›

/-- A note with markers of its own, or a comment alone on a line, ends on a line that is
    not displayed. -/
theorem Pending.IsWritten.exists_closed_line {readings : List Reading} {note : Pending}
    (h : note.IsWritten readings) (hform : note.form ≠ .inline) :
    ∃ closer ∈ readings, note.closed = closer.line.number ∧ ¬closer.role.isKept := by
  cases h with
  | @block _ closer _ _ _ _ _ _ hcloser _ hrole =>
    exact ⟨closer, hcloser, rfl, by rw [hrole]; exact Bool.false_ne_true⟩
  | @line reading _ _ hreading hrole =>
    exact ⟨reading, hreading, rfl, by rw [hrole]; exact Bool.false_ne_true⟩
  | inline => exact absurd rfl hform

/-- A note begins on an opening marker if it is a block, and on no other line of that kind. -/
theorem Pending.IsWritten.exists_opened_line {readings : List Reading} {note : Pending}
    (h : note.IsWritten readings) :
    ∃ opener ∈ readings, note.opened = opener.line.number ∧
      (note.form = .block ↔ ∃ id words, opener.role = .opening id words) := by
  cases h with
  | @block opener _ _ _ _ _ _ hopener _ hrole => exact ⟨opener, hopener, rfl, by simp [hrole]⟩
  | @line reading _ _ hreading hrole => exact ⟨reading, hreading, rfl, by simp [hrole]⟩
  | @inline reading _ _ _ hreading hrole => exact ⟨reading, hreading, rfl, by simp [hrole]⟩

namespace Pairing

/-- The open and the closed notes are written on these lines. -/
structure IsWritten (readings : List Reading) (p : Pairing) : Prop where
  drafts : ∀ draft ∈ p.stack, ∃ opener ∈ readings,
    opener.role = .opening draft.id draft.words ∧ draft.opened = opener.line.number
  closed : ∀ note ∈ p.closed, note.IsWritten readings

theorem IsWritten.step {done : List Reading} {p q : Pairing} {reading : Reading}
    (h : p.IsWritten done) (hbefore : ∀ r ∈ done, r.line.number < reading.line.number)
    (hs : Step p reading.line.number reading.role q) : q.IsWritten (done ++ [reading]) := by
  have hsub : done ⊆ done ++ [reading] := List.subset_append_left ..
  have hnew : reading ∈ done ++ [reading] := by simp
  have hclosed : ∀ note ∈ p.closed, note.IsWritten (done ++ [reading]) :=
    fun note hnote => (h.closed note hnote).mono hsub
  have hdrafts : ∀ draft ∈ p.stack, ∃ opener ∈ done ++ [reading],
      opener.role = .opening draft.id draft.words ∧ draft.opened = opener.line.number := by
    intro draft hdraft
    obtain ⟨opener, hopener, hopened⟩ := h.drafts draft hdraft
    exact ⟨opener, hsub hopener, hopened⟩
  generalize hrole : reading.role = role at hs
  cases hs with
  | plain => exact ⟨hdrafts, hclosed⟩
  | remark =>
    refine ⟨hdrafts, List.forall_mem_append.2 ⟨hclosed, List.forall_mem_singleton.2 ?_⟩⟩
    exact .inline hnew hrole
  | note =>
    refine ⟨hdrafts, List.forall_mem_append.2 ⟨hclosed, List.forall_mem_singleton.2 ?_⟩⟩
    exact .line hnew hrole
  | opening =>
    exact ⟨List.forall_mem_cons.2 ⟨⟨reading, hnew, hrole, rfl⟩, hdrafts⟩, hclosed⟩
  | body =>
    rw [List.forall_mem_cons] at hdrafts
    exact ⟨List.forall_mem_cons.2 hdrafts, hclosed⟩
  | @closing above below draft =>
    have hrest : ∀ other ∈ above ++ below, other ∈ above ++ draft :: below := by
      intro other hother
      rcases List.mem_append.1 hother with hother | hother
      · exact List.mem_append_left _ hother
      · exact List.mem_append_right _ (List.mem_cons_of_mem _ hother)
    refine ⟨fun other hother => hdrafts other (hrest other hother),
      List.forall_mem_append.2 ⟨hclosed, List.forall_mem_singleton.2 ?_⟩⟩
    obtain ⟨opener, hopener, hwords, hopened⟩ := h.drafts draft (by simp)
    rw [Draft.close, hopened]
    exact .block (hsub hopener) hnew hwords hrole (hbefore opener hopener)

/-- Whatever lines are read in the order of their numbers, the notes are written
    on them. -/
theorem Run.isWritten {readings : List Reading} {p : Pairing} (h : Run {} readings p)
    (ho : Ordered readings) : p.IsWritten readings := by
  have ho' : Ordered ([] ++ readings) := ho
  exact h.invariant IsWritten.step ho' ⟨by simp, by simp⟩

end Pairing

end Marginalia.Note
