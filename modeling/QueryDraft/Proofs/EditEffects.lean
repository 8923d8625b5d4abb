import QueryDraft.Query.Edit

/-!
What a single edit does to a query, part by part, and what a run of edits keeps. An edit changes one part
of a query, but for the removal of a table, which may take a join along, and a reset.
-/

set_option autoImplicit false

namespace QueryDraft

/-! ## Members of edited lists -/

theorem mem_of_mem_map_ite {α : Type} (items : List α) (hit : α → Prop) [DecidablePred hit] (f : α → α) (b : α)
    (member : b ∈ items.map fun a => if hit a then f a else a) : b ∈ items ∨ ∃ a ∈ items, hit a ∧ b = f a := by
  obtain ⟨a, old, rfl⟩ := List.mem_map.mp member
  by_cases here : hit a
  · exact .inr ⟨a, old, here, if_pos here⟩
  · exact .inl (by rwa [if_neg here])

theorem mem_of_mem_modify {α : Type} (items : List α) (idx : Nat) (f : α → α) (b : α) (member : b ∈ items.modify idx f) :
    b ∈ items ∨ ∃ a ∈ items, b = f a := by
  obtain ⟨n, found⟩ := List.mem_iff_getElem?.mp member
  rw [List.getElem?_modify, Option.map_eq_map, Option.map_eq_some_iff] at found
  obtain ⟨a, old, rfl⟩ := found
  by_cases hit : idx = n
  · exact .inr ⟨a, List.mem_of_getElem? old, if_pos hit⟩
  · exact .inl (by rw [if_neg hit]; exact List.mem_of_getElem? old)

namespace Query

variable (catalog : Catalog) (q : Query) (e : Edit)

/-! ## Tables -/

theorem remove_table_sources (idx : Nat) : (q.removeTable idx).sources = q.sources.eraseIdx idx := by
  by_cases inside : idx < q.sources.length
  · rw [removeTable, if_pos inside]
  · rw [removeTable, if_neg inside, List.eraseIdx_of_length_le (Nat.le_of_not_lt inside)]

theorem sources_apply :
    (q.apply catalog e).sources =
      match e with
      | .reset => [.blank]
      | .addTable => q.sources ++ [.blank]
      | .removeTable idx => q.sources.eraseIdx idx
      | .editTable idx change => q.sources.modify idx fun s => s.apply catalog change
      | _ => q.sources := by
  cases e with
  | removeTable idx => exact q.remove_table_sources idx
  | editJoin idx change => exact (apply_ite sources _ _ _).trans (ite_self _)
  | toggleColumn c => exact (apply_ite sources _ _ _).trans (ite_self _)
  | addGrouping name => exact (apply_ite sources _ _ _).trans (ite_self _)
  | _ => rfl

-- A table was there before, is a new one, or has just been edited.
theorem mem_sources_apply (s : Source) (member : s ∈ (q.apply catalog e).sources) :
    s ∈ q.sources ∨ s = .blank ∨
      ∃ idx change old, e = .editTable idx change ∧ old ∈ q.sources ∧ s = old.apply catalog change := by
  rw [sources_apply] at member
  cases e with
  | reset => exact .inr (.inl (List.mem_singleton.mp member))
  | addTable => exact (List.mem_append.mp member).imp_right fun new => .inl (List.mem_singleton.mp new)
  | removeTable idx => exact .inl (List.mem_of_mem_eraseIdx member)
  | editTable idx change =>
      refine (mem_of_mem_modify _ _ _ _ member).imp_right fun edited => .inr ?_
      obtain ⟨old, known, rfl⟩ := edited
      exact ⟨idx, change, old, rfl, known, rfl⟩
  | _ => exact .inl member

/-! ## Joins -/

theorem joins_apply :
    (q.apply catalog e).joins =
      match e with
      | .reset => []
      | .removeTable idx => (q.removeTable idx).joins
      | .addJoin => q.joins ++ [.blank]
      | .editJoin idx change => (q.editJoin idx change).joins
      | _ => q.joins := by
  cases e with
  | toggleColumn c => exact (apply_ite joins _ _ _).trans (ite_self _)
  | addGrouping name => exact (apply_ite joins _ _ _).trans (ite_self _)
  | _ => rfl

theorem remove_table_joins (idx : Nat) :
    (q.removeTable idx).joins.length =
      if 0 < idx ∧ idx < q.sources.length ∧ idx ≤ q.joins.length then q.joins.length - 1 else q.joins.length := by
  by_cases inside : idx < q.sources.length
  · cases idx with
    | zero => simp [removeTable, inside]
    | succ idx =>
        rw [removeTable, if_pos inside]
        dsimp only
        rw [if_neg (Nat.succ_ne_zero idx), List.length_eraseIdx]
        split <;> split <;> omega
  · simp [removeTable, inside]

-- Only a table that waits for its join lets the list of joins grow, and no further than to that join.
theorem edit_join_length (idx : Nat) (change : JoinEdit) :
    (q.editJoin idx change).joins.length =
      if idx + 1 < q.sources.length then max q.joins.length (idx + 1) else q.joins.length := by
  unfold editJoin
  by_cases waiting : idx + 1 < q.sources.length
  · rw [if_pos (.inr waiting), if_pos waiting, List.length_modify, List.length_append, List.length_replicate]
    omega
  · rw [if_neg waiting]
    by_cases known : idx < q.joins.length
    · rw [if_pos (.inl known), List.length_modify, List.length_append, List.length_replicate]
      omega
    · rw [if_neg (not_or.mpr ⟨known, waiting⟩)]

/-! ## Columns -/

theorem columns_apply :
    (q.apply catalog e).columns =
      match e with
      | .reset => .empty
      | .toggleColumn c => (q.toggleColumn c).columns
      | .setAggregate name aggregate => (q.setAggregate name aggregate).columns
      | .setAlias name asName => (q.setAlias name asName).columns
      | _ => q.columns := by
  cases e with
  | removeTable idx => exact (apply_ite columns _ _ _).trans (ite_self _)
  | editJoin idx change => exact (apply_ite columns _ _ _).trans (ite_self _)
  | addGrouping name => exact (apply_ite columns _ _ _).trans (ite_self _)
  | _ => rfl

-- A column was there before, is a new and plain one, or has just been given its aggregate or its alias.
theorem mem_columns_apply (entry : KeyedColumn) (member : entry ∈ (q.apply catalog e).columns.items) :
    entry ∈ q.columns.items ∨ (∃ c, e = .toggleColumn c ∧ entry = (c.name, .plain c.name c.type)) ∨
      (∃ old ∈ q.columns.items, ∃ aggregate,
        e = .setAggregate old.1 aggregate ∧ entry = (old.1, { old.2 with aggregate })) ∨
      ∃ old ∈ q.columns.items, ∃ asName, e = .setAlias old.1 asName ∧ entry = (old.1, old.2.withAlias asName) := by
  rw [columns_apply] at member
  cases e with
  | reset => cases member
  | toggleColumn c =>
      dsimp only [toggleColumn] at member
      split at member
      · exact .inl ((List.mem_filter.mp member).1)
      · rcases (Roster.mem_put _ _ _).mp member with rfl | ⟨old, -⟩
        · exact .inr (.inl ⟨c, rfl, rfl⟩)
        · exact .inl old
  | setAggregate name aggregate =>
      rcases mem_of_mem_map_ite _ _ _ _ member with old | ⟨entry, old, rfl, rfl⟩
      · exact .inl old
      · exact .inr (.inr (.inl ⟨entry, old, aggregate, rfl, rfl⟩))
  | setAlias name asName =>
      rcases mem_of_mem_map_ite _ _ _ _ member with old | ⟨entry, old, rfl, rfl⟩
      · exact .inl old
      · exact .inr (.inr (.inr ⟨entry, old, asName, rfl, rfl⟩))
  | _ => exact .inl member

/-! ## Grouping -/

theorem grouping_apply :
    (q.apply catalog e).grouping =
      match e with
      | .reset => .empty
      | .addGrouping name => (q.addGrouping name).grouping
      | .removeGrouping name => q.grouping.erase name
      | _ => q.grouping := by
  cases e with
  | removeTable idx => exact (apply_ite grouping _ _ _).trans (ite_self _)
  | editJoin idx change => exact (apply_ite grouping _ _ _).trans (ite_self _)
  | toggleColumn c => exact (apply_ite grouping _ _ _).trans (ite_self _)
  | _ => rfl

theorem mem_grouping_apply (name : String) (member : name ∈ (q.apply catalog e).grouping.items) :
    name ∈ q.grouping.items ∨ e = .addGrouping name ∧ name ≠ "" := by
  rw [grouping_apply] at member
  cases e with
  | reset => cases member
  | addGrouping added =>
      dsimp only [addGrouping] at member
      split at member
      · exact .inl member
      · rename_i present
        rcases (Roster.mem_put _ _ _).mp member with rfl | ⟨old, -⟩
        · exact .inr ⟨rfl, present⟩
        · exact .inl old
  | removeGrouping name => exact .inl ((List.mem_filter.mp member).1)
  | _ => exact .inl member

/-! ## Runs -/

-- Edits one after another, each with the catalog that its table is looked up in.
def run (q : Query) (steps : List (Catalog × Edit)) : Query := steps.foldl (fun q (catalog, e) => q.apply catalog e) q

theorem apply_all_run (edits : List Edit) : q.applyAll catalog edits = q.run (edits.map fun e => (catalog, e)) := by
  rw [run, List.foldl_map]
  rfl

-- What every allowed edit keeps, a run of allowed edits keeps.
theorem run_keeps (Keeps : Query → Prop) (Allowed : Catalog → Edit → Prop)
    (step : ∀ catalog q e, Allowed catalog e → Keeps q → Keeps (q.apply catalog e)) (steps : List (Catalog × Edit))
    (allowed : ∀ s ∈ steps, Allowed s.1 s.2) (start : Keeps q) : Keeps (q.run steps) := by
  induction steps generalizing q with
  | nil => exact start
  | cons first rest ih =>
      obtain ⟨here, behind⟩ := List.forall_mem_cons.mp allowed
      exact ih _ behind (step _ q _ here start)

end Query
end QueryDraft
