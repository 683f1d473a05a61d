import Marginalia.Proofs.Note.Tracking

/-!
# The notes around a line

A note between markers is around the lines between these. While lines are taken in, the
notes around a line are those closed past it and those still open (`Pairing.around`). No
later line changes them (`around_of_step`), whatever it closes: a note that goes from the
stack to the closed ones stays around the lines it was around. When a line is taken in
they are the notes on the stack (`around_eq_map_stack`).

* `depths_of_feedAll`: the depth of a note is the number of notes around its opening
  marker;
* `around_of_stack_eq_nil`: once no note is open, only the closed ones count.
-/

namespace Marginalia.Note

/-- Whether the line is between the markers of the note. -/
def Pending.surrounds (note : Pending) (line : Int) : Bool :=
  note.opened < line && line < note.closed

theorem Pending.surrounds_iff {note : Pending} {line : Int} :
    note.surrounds line ↔ note.opened < line ∧ line < note.closed := by
  rw [surrounds, Bool.and_eq_true, decide_eq_true_eq, decide_eq_true_eq]

namespace Pairing

/-- The opening lines of the notes around a line, so far as it is known. -/
def around (p : Pairing) (line : Int) : List Int :=
  ((blocksOf p.closed).filter (·.surrounds line)).map (·.opened) ++
    (p.stack.filter (·.opened < line)).map (·.opened)

variable {p q : Pairing} {items done : List Item} {line i : Int} {role : Role}

theorem lt_of_mem_around {opened : Int} (h : opened ∈ p.around line) : opened < line := by
  rcases List.mem_append.1 h with h | h
  · obtain ⟨block, hblock, rfl⟩ := List.mem_map.1 h
    exact (Pending.surrounds_iff.1 (List.mem_filter.1 hblock).2).1
  · obtain ⟨draft, hdraft, rfl⟩ := List.mem_map.1 h
    exact of_decide_eq_true (List.mem_filter.1 hdraft).2

/-- A note on a single line is around no line. -/
theorem around_add {note : Pending} (h : note.form ≠ .block) (line : Int) :
    (p.add note).around line = p.around line := by
  rw [around, around, add, blocksOf_concat_of_ne _ h]

/-- It does not matter what is in the body of a note. -/
theorem around_body {draft : Draft} {below : List Draft} {closed : List Pending} (body : List Text)
    (line : Int) : around ⟨{ draft with body := body } :: below, closed⟩ line =
      around ⟨draft :: below, closed⟩ line := by
  simp only [around, List.filter_cons, apply_ite (List.map Draft.opened), List.map_cons]

/-- A line does not change the notes around the lines before it. -/
theorem around_of_step (hs : Step p line role q) (hlt : i < line) :
    (q.around i).Perm (p.around i) := by
  cases hs with
  | plain => exact .refl _
  | remark | note => exact .of_eq (around_add Form.noConfusion i)
  | opening =>
    have hnot : ¬line < i := by omega
    simp only [around, List.filter_cons, decide_eq_true_eq, if_neg hnot, List.Perm.refl]
  | body => exact .of_eq (around_body _ i)
  | @closing above below draft closed _ id _ =>
    have hsurrounds : (draft.close line).surrounds i = decide (draft.opened < i) := by
      rw [Pending.surrounds, Draft.close, decide_eq_true hlt, Bool.and_true]
    simp only [around, blocksOf_concat_close, List.filter_append, List.map_append, List.filter_cons,
      hsurrounds, List.filter_nil, List.append_assoc]
    refine List.Perm.append_left _ ?_
    -- The note is among the closed ones now, and no longer on the stack.
    split
    · simp only [List.map_cons, List.map_nil, List.cons_append, List.nil_append]
      exact List.perm_middle.symm
    · exact .refl _

/-- The notes around a line that is taken in are the open ones. -/
theorem around_eq_map_stack (h : Tracks done p) (hbefore : ∀ other ∈ done, other.line < line) :
    p.around line = p.stack.map (·.opened) := by
  have hclosed : (blocksOf p.closed).filter (·.surrounds line) = [] := by
    refine List.filter_eq_nil_iff.2 fun block hb hsurrounds => ?_
    have := h.closed_lt hbefore (List.mem_filter.1 hb).1
    have := (Pending.surrounds_iff.1 hsurrounds).2
    omega
  have hstack : p.stack.filter (·.opened < line) = p.stack :=
    List.filter_eq_self.2 fun draft hd => decide_eq_true (h.opened_lt hbefore hd)
  rw [around, hclosed, hstack, List.map_nil, List.nil_append]

theorem around_of_stack_eq_nil (h : p.stack = []) (line : Int) :
    p.around line = ((blocksOf p.closed).filter (·.surrounds line)).map (·.opened) := by
  rw [around, h, List.filter_nil, List.map_nil, List.append_nil]

/-! ## Depths -/

/-- The depth of a note is the number of notes around its opening marker. -/
structure Depths (p : Pairing) : Prop where
  drafts : ∀ draft ∈ p.stack, draft.depth = (p.around draft.opened).length
  closed : ∀ note ∈ p.closed, note.depth = (p.around note.opened).length

theorem Depths.step (h : p.Depths) (htracks : Tracks done p)
    (hbefore : ∀ other ∈ done, other.line < line) (hs : Step p line role q) : q.Depths := by
  have hkeep : ∀ i < line, (q.around i).length = (p.around i).length :=
    fun i hlt => (around_of_step hs hlt).length_eq
  -- What was opened before the line keeps the notes around it.
  have hdrafts : ∀ draft ∈ p.stack, draft.depth = (q.around draft.opened).length :=
    fun draft hd => by rw [hkeep _ (htracks.opened_lt hbefore hd), h.drafts draft hd]
  have hclosed : ∀ note ∈ p.closed, note.depth = (q.around note.opened).length := by
    intro note hn
    have hle := htracks.opened_le_closed hn
    have hlt := htracks.closed_lt hbefore hn
    rw [hkeep _ (by omega), h.closed note hn]
  -- The line itself is inside the notes that are open there.
  have hdepth : (p.depth : Int) = (p.around line).length := by
    rw [around_eq_map_stack htracks hbefore, List.length_map, depth]
  cases hs with
  | plain => exact h
  | remark =>
    refine ⟨hdrafts, List.forall_mem_append.2 ⟨hclosed, List.forall_mem_singleton.2 ?_⟩⟩
    rw [around_add Form.noConfusion]
    exact hdepth
  | note =>
    refine ⟨hdrafts, List.forall_mem_append.2 ⟨hclosed, List.forall_mem_singleton.2 ?_⟩⟩
    rw [around_add Form.noConfusion]
    exact hdepth
  | opening =>
    refine ⟨List.forall_mem_cons.2 ⟨?_, hdrafts⟩, hclosed⟩
    simpa only [around, List.filter_cons, Int.lt_irrefl, decide_false, Bool.false_eq_true, if_false]
      using hdepth
  | body =>
    rw [List.forall_mem_cons] at hdrafts
    exact ⟨List.forall_mem_cons.2 hdrafts, hclosed⟩
  | closing =>
    simp only [List.forall_mem_append, List.forall_mem_cons] at hdrafts
    obtain ⟨habove, hdraft, hbelow⟩ := hdrafts
    exact ⟨List.forall_mem_append.2 ⟨habove, hbelow⟩,
      List.forall_mem_append.2 ⟨hclosed, List.forall_mem_singleton.2 hdraft⟩⟩

/-- All lines keep the depths right. -/
theorem depths_of_feedAll (ho : InOrder items) (h : feedAll {} items = .ok p) : p.Depths :=
  invariant_of_tracks (I := fun _ p => p.Depths) ⟨by simp, by simp⟩ (fun hdepths _ => hdepths.step)
    ho h

end Pairing

end Marginalia.Note
