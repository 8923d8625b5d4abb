import QueryDraft.Proofs.EditEffects

/-!
Two invariants of whole runs of edits. Joins never outnumber the tables that wait for one, unless one is
added on its own or the first table goes; and the parts that a statement shows are kept in their normal form.
-/

set_option autoImplicit false

namespace QueryDraft

namespace Query

/-! ## Joins and tables -/

-- Every join has its table to attach.
structure Attached (q : Query) : Prop where
  bound : q.joins.length ≤ q.sources.length - 1
  alignment : ∀ n, q.alignment ≠ .surplus n
  paired : ∀ i < q.joins.length, ∃ s, q.joined? i = some s

theorem attached_of_bound (q : Query) (bound : q.joins.length ≤ q.sources.length - 1) : q.Attached := by
  refine ⟨bound, fun n => ?_, fun i among => ?_⟩
  · rw [alignment, ne_eq, Alignment.of_counts_surplus]
    omega
  · have inside : i + 1 < q.sources.length := by omega
    exact ⟨q.sources[i + 1], List.getElem?_eq_getElem inside⟩

-- The edits that keep the bound: all but a join added on its own and the removal of the first table.
def KeepsBound (e : Edit) : Prop := e ≠ .addJoin ∧ e ≠ .removeTable 0

instance (e : Edit) : Decidable (KeepsBound e) := inferInstanceAs (Decidable (_ ∧ _))

theorem bound_apply (catalog : Catalog) (q : Query) (e : Edit) (keeps : KeepsBound e)
    (bound : q.joins.length ≤ q.sources.length - 1) :
    (q.apply catalog e).joins.length ≤ (q.apply catalog e).sources.length - 1 := by
  rw [joins_apply, sources_apply]
  cases e with
  | reset => exact Nat.zero_le _
  | addTable =>
      dsimp only
      rw [List.length_append]
      omega
  | removeTable idx =>
      have behind : idx ≠ 0 := fun first => keeps.2 (congrArg Edit.removeTable first)
      dsimp only
      rw [remove_table_joins, List.length_eraseIdx]
      split <;> split <;> omega
  | editTable idx change => simpa only [List.length_modify] using bound
  | addJoin => exact absurd rfl keeps.1
  | editJoin idx change =>
      dsimp only
      rw [edit_join_length]
      split <;> omega
  | _ => exact bound

/-- However a query is edited, every join has its table, unless a join is added on its own or the first table is
removed. -/
theorem attached_after_run (q : Query) (steps : List (Catalog × Edit))
    (start : q = fresh ∨ q.joins.length ≤ q.sources.length - 1) (keep : ∀ s ∈ steps, KeepsBound s.2) :
    (q.run steps).Attached := by
  have bound : q.joins.length ≤ q.sources.length - 1 := by
    rcases start with rfl | bound
    · exact Nat.zero_le _
    · exact bound
  exact attached_of_bound _ (run_keeps q _ (fun _ e => KeepsBound e) bound_apply steps keep bound)

-- The third join is edited while none is there yet, and a table goes together with its join, another alone.
theorem attached_after_run_example :
    let steps : List (Catalog × Edit) :=
      [.addTable, .addTable, .addTable, .editJoin 2 (.left "a.id"), .editJoin 7 (.left "b.id"), .removeTable 1, .addTable,
        .removeTable 3, .removeTable 9].map fun e => (.empty, e)
    (fresh.run steps).sources.length = 3 ∧ (fresh.run steps).joins = [.blank, { Join.blank with left := "a.id" }] ∧
      (fresh.run steps).Attached := by
  intro steps
  exact ⟨by decide, by decide, attached_after_run fresh steps (.inl rfl) (by decide)⟩

example : (fresh.run [(.empty, .addJoin)]).alignment = .surplus 1 := by decide

/-! ## Normal forms -/

-- Columns stand under their own names, no alias and no name to group by is empty, and nothing stands twice.
structure WellFormed (q : Query) : Prop where
  keyed : ∀ entry ∈ q.columns.items, entry.1 = entry.2.name
  columnsOnce : (q.columns.items.map Prod.fst).Nodup
  columnAliases : ∀ entry ∈ q.columns.items, entry.2.asName ≠ some ""
  tableAliases : ∀ s ∈ q.sources, s.asName ≠ some ""
  grouped : ∀ name ∈ q.grouping.items, name ≠ ""
  groupedOnce : q.grouping.items.Nodup

theorem alias_of_present (text : String) : aliasOf text ≠ some "" := by
  unfold aliasOf
  split
  · exact nofun
  · rename_i present
    exact fun same => present (Option.some.inj same)

theorem table_alias_apply (catalog : Catalog) (s : Source) (change : SourceEdit) (present : s.asName ≠ some "") :
    (s.apply catalog change).asName ≠ some "" := by
  cases change with
  | asName text => exact alias_of_present text
  | _ => exact present

theorem well_formed_apply (catalog : Catalog) (q : Query) (e : Edit) (formed : q.WellFormed) :
    (q.apply catalog e).WellFormed := by
  have columns : ∀ entry ∈ (q.apply catalog e).columns.items, entry.1 = entry.2.name ∧ entry.2.asName ≠ some "" := by
    intro entry member
    rcases mem_columns_apply catalog q e entry member with
      old | ⟨c, -, rfl⟩ | ⟨old, known, aggregate, -, rfl⟩ | ⟨old, known, asName, -, rfl⟩
    · exact ⟨formed.keyed entry old, formed.columnAliases entry old⟩
    · exact ⟨rfl, nofun⟩
    · exact ⟨formed.keyed old known, formed.columnAliases old known⟩
    · exact ⟨formed.keyed old known, alias_of_present asName⟩
  constructor
  case keyed => exact fun entry member => (columns entry member).1
  case columnsOnce => exact (q.apply catalog e).columns.distinct
  case columnAliases => exact fun entry member => (columns entry member).2
  case tableAliases =>
    intro s member
    rcases mem_sources_apply catalog q e s member with old | rfl | ⟨idx, change, old, -, known, rfl⟩
    · exact formed.tableAliases s old
    · exact nofun
    · exact table_alias_apply catalog old change (formed.tableAliases old known)
  case grouped =>
    intro name member
    rcases mem_grouping_apply catalog q e name member with old | ⟨-, present⟩
    · exact formed.grouped name old
    · exact present
  case groupedOnce => simpa using (q.apply catalog e).grouping.distinct

theorem well_formed_fresh : fresh.WellFormed where
  keyed := nofun
  columnsOnce := .nil
  columnAliases := nofun
  tableAliases := by decide
  grouped := nofun
  groupedOnce := .nil

/-- Every query that edits lead to from a fresh one is in its normal form. -/
theorem well_formed_after_run (steps : List (Catalog × Edit)) : (fresh.run steps).WellFormed :=
  run_keeps fresh _ (fun _ _ => True) (fun catalog q e _ => well_formed_apply catalog q e) steps (fun _ _ => trivial)
    well_formed_fresh

end Query
end QueryDraft
