import QueryDraft.Proofs.PickerNames

/-!
The columns offered for the two sides of a join. On the right stand the columns of the joined table, on the left
those of the tables before it, so that each join finds on its left all that the joins before it were offered.
-/

set_option autoImplicit false

namespace QueryDraft

namespace Candidate

variable (catalog : Catalog) (position : Nat) (sources : List Source)

/-! ## Positions -/

theorem position_of_source (s : Source) (c : Candidate) (member : c ∈ ofSource catalog position s) :
    c.position = position := by
  obtain ⟨entry, -, column, -, rfl⟩ := (mem_of_source catalog position s c).mp member
  rfl

-- Tables the catalog does not know keep their positions, so that those behind them do not move up.
theorem position_of_collect (c : Candidate) (member : c ∈ collect catalog position sources) : position ≤ c.position := by
  obtain ⟨n, s, -, inside⟩ := (mem_collect catalog position sources c).mp member
  rw [position_of_source catalog _ s c inside]
  exact Nat.le_add_right position n

theorem collect_append (front rest : List Source) :
    collect catalog position (front ++ rest) =
      collect catalog position front ++ collect catalog (position + front.length) rest := by
  induction front generalizing position with
  | nil => rfl
  | cons s front ih =>
      rw [List.cons_append, collect, collect, ih, List.append_assoc, List.length_cons, Nat.add_assoc, Nat.add_comm 1]

/-! ## Sides -/

-- On the left of the join of a table stand the columns of as many tables as there are before it.
theorem left_collect (count : Nat) :
    left (collect catalog position sources) (position + count) = collect catalog position (sources.take count) := by
  induction sources generalizing position count with
  | nil => rw [List.take_nil, collect, left, List.filter_nil]
  | cons s rest ih =>
      cases count with
      | zero =>
          refine List.filter_eq_nil_iff.mpr fun c member before => ?_
          exact Nat.not_lt.mpr (position_of_collect catalog position _ c member) (of_decide_eq_true before)
      | succ count =>
          have first : left (ofSource catalog position s) (position + (count + 1)) = ofSource catalog position s := by
            refine List.filter_eq_self.mpr fun c member => decide_eq_true ?_
            rw [position_of_source catalog position s c member]
            exact Nat.lt_add_of_pos_right (Nat.succ_pos count)
          have behind := ih (position + 1) count
          rw [Nat.add_assoc, Nat.add_comm 1] at behind
          rw [left] at first behind ⊢
          rw [collect, List.filter_append, first, behind, List.take_succ_cons, collect]

theorem right_collect (count : Nat) :
    right (collect catalog position sources) (position + count) =
      (sources[count]?).elim [] (ofSource catalog (position + count)) := by
  induction sources generalizing position count with
  | nil => rfl
  | cons s rest ih =>
      rw [collect, right, List.filter_append]
      cases count with
      | zero =>
          have here : (ofSource catalog position s).filter (fun c => c.position = position + 0) =
              ofSource catalog position s :=
            List.filter_eq_self.mpr fun c member => decide_eq_true (position_of_source catalog position s c member)
          have later : (collect catalog (position + 1) rest).filter (fun c => c.position = position + 0) = [] := by
            refine List.filter_eq_nil_iff.mpr fun c member same => ?_
            exact Nat.ne_of_gt (position_of_collect catalog _ rest c member) (of_decide_eq_true same)
          rw [here, later, List.append_nil]
          rfl
      | succ count =>
          have other : (ofSource catalog position s).filter (fun c => c.position = position + (count + 1)) = [] := by
            refine List.filter_eq_nil_iff.mpr fun c member same => ?_
            rw [decide_eq_true_eq, position_of_source catalog position s c member] at same
            exact absurd same (Nat.ne_of_lt (Nat.lt_add_of_pos_right (Nat.succ_pos count)))
          have behind := ih (position + 1) count
          rw [Nat.add_assoc, Nat.add_comm 1] at behind
          rw [other, List.nil_append, List.getElem?_cons_succ]
          exact behind

theorem left_succ (count : Nat) :
    left (collect catalog 0 sources) (count + 1) =
      left (collect catalog 0 sources) count ++ right (collect catalog 0 sources) count := by
  have before := left_collect catalog 0 sources count
  have after := left_collect catalog 0 sources (count + 1)
  have here := right_collect catalog 0 sources count
  rw [Nat.zero_add] at before after here
  rw [before, after, here, List.take_add_one, collect_append, List.append_cancel_left_eq]
  cases found : sources[count]? with
  | none => rfl
  | some s =>
      have inside := (List.getElem?_eq_some_iff.mp found).1
      rw [List.length_take_of_le (Nat.le_of_lt inside), Nat.zero_add]
      exact List.append_nil _

-- Join by join, the tables before a position add up to what stands on its left.
theorem left_parts (count : Nat) :
    left (collect catalog 0 sources) count = (List.range count).flatMap (right (collect catalog 0 sources)) := by
  induction count with
  | zero =>
      have none := left_collect catalog 0 sources 0
      rwa [List.take_zero] at none
  | succ count ih => rw [left_succ, ih, List.range_succ, List.flatMap_append, List.flatMap_singleton]

/-- The right sides divide what is offered: what stands on the left grows from one join to the next by the right
side between them, from nothing to all that is offered. A right side holds the columns of the catalog's table that
is picked at its position, in their order, and nothing if there is none. -/
theorem sides_divided (catalog : Catalog) (sources : List Source) (count : Nat) :
    left (collect catalog 0 sources) (count + 1) =
        left (collect catalog 0 sources) count ++ right (collect catalog 0 sources) count ∧
      left (collect catalog 0 sources) 0 = [] ∧
      left (collect catalog 0 sources) sources.length = collect catalog 0 sources ∧
      collect catalog 0 sources = (List.range sources.length).flatMap (right (collect catalog 0 sources)) ∧
      (∀ s t, sources[count]? = some s → t ∈ catalog.tables → t.id = s.id →
        right (collect catalog 0 sources) count =
          t.columns.map fun column => ⟨t.name, s.asName.getD t.name, count, column⟩) ∧
      ((∀ s, sources[count]? = some s → ∀ t ∈ catalog.tables, t.id ≠ s.id) →
        right (collect catalog 0 sources) count = []) := by
  have whole : left (collect catalog 0 sources) sources.length = collect catalog 0 sources := by
    have all := left_collect catalog 0 sources sources.length
    rwa [Nat.zero_add, List.take_length] at all
  have side := right_collect catalog 0 sources count
  rw [Nat.zero_add] at side
  refine ⟨left_succ catalog sources count, left_parts catalog sources 0, whole,
    whole.symm.trans (left_parts catalog sources _), fun s t found listed same => ?_, fun unknown => ?_⟩
  · have known : catalog.table? s.id = some t := (catalog.get_eq_some _ _).mpr ⟨listed, same⟩
    rw [side, found, Option.elim_some, ofSource, known]
  · rw [side]
    cases found : sources[count]? with
    | none => rfl
    | some s =>
        have absent : catalog.table? s.id = none := by
          refine Option.eq_none_iff_forall_ne_some.mpr fun t known => ?_
          obtain ⟨listed, same⟩ := (catalog.get_eq_some _ _).mp known
          exact unknown s found t listed same
        rw [Option.elim_some, ofSource, absent]

-- The users join themselves around a table the catalog does not know: their columns stand on both sides.
theorem sides_divided_example :
    let users : TableEntry := ⟨"t1", "users", [⟨"id", "integer"⟩, ⟨"boss", "integer"⟩]⟩
    let catalog : Catalog := Roster.empty.put users
    let sources : List Source := [⟨"t1", "users", none⟩, ⟨"t9", "gone", none⟩, ⟨"t1", "users", some "b"⟩]
    let offered := collect catalog 0 sources
    users ∈ catalog.tables ∧ right offered 1 = [] ∧
      right offered 2 = [⟨"users", "b", 2, ⟨"id", "integer"⟩⟩, ⟨"users", "b", 2, ⟨"boss", "integer"⟩⟩] ∧
      (left offered 2).map qualifiedName = ["users.id", "users.boss"] ∧
      left offered 3 = left offered 2 ++ right offered 2 ∧ left offered 3 = offered := by
  intro users catalog sources offered
  obtain ⟨grows, -, whole, -, joined, -⟩ := sides_divided catalog sources 2
  obtain ⟨-, -, -, -, -, unknown⟩ := sides_divided catalog sources 1
  have listed : users ∈ catalog.tables := List.mem_singleton_self users
  refine ⟨listed, unknown ?_, joined _ users rfl listed rfl, by decide, grows, whole⟩
  rintro s found t member
  obtain rfl : ⟨"t9", "gone", none⟩ = s := Option.some.inj found
  obtain rfl := List.mem_singleton.mp member
  decide

end Candidate
end QueryDraft
