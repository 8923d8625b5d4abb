import QueryDraft.Proofs.Compilation
import QueryDraft.Proofs.IssueRules
import QueryDraft.Proofs.RunInvariants

/-!
Empty texts in a statement. The rules leave nothing empty but the names and aliases of selected columns, the
aliases of tables and the names to group by. Edits give no empty alias and group by no empty name, but they
select a column whose name is empty, and a snapshot may hold any of these.
-/

set_option autoImplicit false

namespace QueryDraft

/-! ## Operands -/

def SelectedColumn.operands (c : SelectedColumn) : List String := c.name :: c.asName.toList

def ComputedColumn.operands (c : ComputedColumn) : List String := [c.expression, c.asName]

def Source.operands (s : Source) : List String := s.name :: s.asName.toList

def Join.operands (j : Join) : List String := [j.left, j.right]

/-! ## Items -/

theorem SelectedColumn.item_given (c : SelectedColumn) (given : c.name ≠ "") : c.item ≠ "" := by
  have expression : c.expression ≠ "" := by
    unfold SelectedColumn.expression
    split
    · simp [Aggregate.applyTo]
    · exact given
  unfold SelectedColumn.item
  split
  · simp
  · exact expression

theorem ComputedColumn.item_given (c : ComputedColumn) : c.item ≠ "" := by
  simp [ComputedColumn.item]

namespace Query

/-! ## Queries -/

-- The texts that SELECT, FROM, the joins and GROUP BY are put together from.
def operands (q : Query) : List String :=
  q.selected.flatMap SelectedColumn.operands ++ q.computed.flatMap ComputedColumn.operands ++
    q.sources.flatMap Source.operands ++ q.joins.flatMap Join.operands ++ q.grouping.items

-- What the rules do not ask for.
structure Spelled (q : Query) : Prop where
  names : ∀ c ∈ q.selected, c.name ≠ ""
  columnAliases : ∀ c ∈ q.selected, c.asName ≠ some ""
  tableAliases : ∀ s ∈ q.sources, s.asName ≠ some ""
  grouped : ∀ name ∈ q.grouping.items, name ≠ ""

theorem given_of_alias (asName : Option String) : (∀ text ∈ asName.toList, text ≠ "") ↔ asName ≠ some "" := by
  cases asName <;> simp

theorem operands_given_iff (q : Query) :
    (∀ text ∈ q.operands, text ≠ "") ↔
      q.Spelled ∧ (∀ c ∈ q.computed, c.expression ≠ "" ∧ c.asName ≠ "") ∧ (∀ s ∈ q.sources, s.name ≠ "") ∧
        ∀ j ∈ q.joins, j.left ≠ "" ∧ j.right ≠ "" := by
  simp only [operands, SelectedColumn.operands, ComputedColumn.operands, Source.operands, Join.operands,
    List.forall_mem_append, List.forall_mem_flatMap, List.forall_mem_cons, given_of_alias, List.not_mem_nil,
    false_imp_iff, implies_true, and_true]
  constructor
  · rintro ⟨⟨⟨⟨columns, computed⟩, sources⟩, joins⟩, grouped⟩
    exact ⟨⟨fun c member => (columns c member).1, fun c member => (columns c member).2,
      fun s member => (sources s member).2, grouped⟩, computed, fun s member => (sources s member).1, joins⟩
  · rintro ⟨spelled, computed, sources, joins⟩
    exact ⟨⟨⟨⟨fun c member => ⟨spelled.names c member, spelled.columnAliases c member⟩, computed⟩,
      fun s member => ⟨sources s member, spelled.tableAliases s member⟩⟩, joins⟩, spelled.grouped⟩

/-! ## Rules -/

theorem entry_of_mem {α : Type} (items : List α) (a : α) (member : a ∈ items) :
    ∃ position, EntryAt items position a := by
  obtain ⟨n, found⟩ := List.mem_iff_getElem?.mp member
  exact ⟨n + 1, Nat.succ_ne_zero n, found⟩

theorem computed_given_of_valid (q : Query) (valid : q.issues = []) :
    ∀ c ∈ q.computed, c.expression ≠ "" ∧ c.asName ≠ "" := by
  intro c member
  obtain ⟨position, entry⟩ := entry_of_mem q.computed c member
  have kept := (issues_nil q).mp valid
  exact ⟨fun empty => kept (.emptyExpression position) ⟨c, entry, empty⟩,
    fun empty => kept (.emptyAlias position) ⟨c, entry, empty⟩⟩

theorem projection_of_valid (q : Query) (valid : q.issues = []) :
    q.selected.map SelectedColumn.item ++ q.computed.map ComputedColumn.item ≠ [] := by
  intro none
  exact (issues_nil q).mp valid .emptyProjection (by simpa [selected, Breaks] using none)

theorem select_clause_of_valid (q : Query) (valid : q.issues = []) :
    q.selectClause = (if q.distinct then "SELECT DISTINCT " else "SELECT ") ++
      ", ".intercalate (q.selected.map SelectedColumn.item ++ q.computed.map ComputedColumn.item) := by
  have some : ¬ (q.selected.map SelectedColumn.item ++ q.computed.map ComputedColumn.item).isEmpty = true := by
    rw [List.isEmpty_iff]
    exact projection_of_valid q valid
  rw [selectClause, if_neg some]

theorem endpoints_given_of_complete (j : Join) (complete : j.isComplete = true) : j.left ≠ "" ∧ j.right ≠ "" := by
  simpa [Join.isComplete] using complete

/-! ## Edits -/

-- An edit that selects a column gives its name.
def NamesColumn (e : Edit) : Prop := ∀ c, e = .toggleColumn c → c.name ≠ ""

theorem unnamed_apply (catalog : Catalog) (q : Query) (e : Edit) (named : NamesColumn e) (absent : "" ∉ q.columns.keys) :
    "" ∉ (q.apply catalog e).columns.keys := by
  intro present
  obtain ⟨entry, member, unnamed⟩ := List.mem_map.mp present
  rcases mem_columns_apply catalog q e entry member with
    old | ⟨c, rfl, rfl⟩ | ⟨old, known, aggregate, -, rfl⟩ | ⟨old, known, asName, -, rfl⟩
  · exact absent (unnamed ▸ List.mem_map_of_mem old)
  · exact named c rfl unnamed
  · exact absent (List.mem_map.mpr ⟨old, known, unnamed⟩)
  · exact absent (List.mem_map.mpr ⟨old, known, unnamed⟩)

theorem unnamed_run (steps : List (Catalog × Edit)) (named : ∀ s ∈ steps, NamesColumn s.2) :
    "" ∉ (fresh.run steps).columns.keys :=
  run_keeps fresh _ (fun _ => NamesColumn) unnamed_apply steps named List.not_mem_nil

theorem spelled_of_well_formed (q : Query) (formed : q.WellFormed) : q.Spelled ↔ "" ∉ q.columns.keys := by
  have keys : q.columns.keys = q.selected.map SelectedColumn.name := by
    rw [Roster.keys, selected, List.map_map]
    exact List.map_congr_left formed.keyed
  rw [keys, List.mem_map]
  constructor
  · rintro spelled ⟨c, member, unnamed⟩
    exact spelled.names c member unnamed
  · intro absent
    have aliases : ∀ c ∈ q.selected, c.asName ≠ some "" := List.forall_mem_map.mpr formed.columnAliases
    exact ⟨fun c member unnamed => absent ⟨c, member, unnamed⟩, aliases, formed.tableAliases, formed.grouped⟩

/-- In a query without issues no operand is empty exactly if the query is spelled out, and then every projected
item is given. What edits lead to is spelled out but for a column that was selected without a name. -/
theorem operands_given (q : Query) (valid : q.issues = []) :
    ((∀ text ∈ q.operands, text ≠ "") ↔ q.Spelled) ∧
      ((∀ s ∈ q.sources, s.name ≠ "") ∧ (∀ j ∈ q.joins, j.left ≠ "" ∧ j.right ≠ "") ∧
        ∀ c ∈ q.computed, c.expression ≠ "" ∧ c.asName ≠ "") ∧
      (q.Spelled → ∃ items, items ≠ [] ∧ (∀ item ∈ items, item ≠ "") ∧
        q.selectClause = (if q.distinct then "SELECT DISTINCT " else "SELECT ") ++ ", ".intercalate items) ∧
      ∀ steps, q = fresh.run steps →
        (q.Spelled ↔ "" ∉ q.columns.keys) ∧ ((∀ s ∈ steps, NamesColumn s.2) → q.Spelled) := by
  have paired := paired_of_valid q valid
  have sources : ∀ s ∈ q.sources, s.name ≠ "" := fun s member => name_of_named s (paired.named s member)
  have joins : ∀ j ∈ q.joins, j.left ≠ "" ∧ j.right ≠ "" := fun j member =>
    endpoints_given_of_complete j (paired.complete j member)
  have computed := computed_given_of_valid q valid
  have projected := projection_of_valid q valid
  refine ⟨?_, ⟨sources, joins, computed⟩, fun spelled => ?_, ?_⟩
  · rw [operands_given_iff]
    exact and_iff_left ⟨computed, sources, joins⟩
  · refine ⟨_, projected, ?_, ?_⟩
    · rw [List.forall_mem_append, List.forall_mem_map, List.forall_mem_map]
      exact ⟨fun c member => c.item_given (spelled.names c member), fun c _ => c.item_given⟩
    · dsimp only [selectClause]
      rw [if_neg (show ¬ List.isEmpty _ = true by rwa [List.isEmpty_iff])]
  · rintro steps rfl
    have formed : (fresh.run steps).WellFormed :=
      run_keeps fresh _ (fun _ _ => True) (fun catalog q e _ => well_formed_apply catalog q e) steps (fun _ _ => trivial)
        well_formed_fresh
    have spelled := spelled_of_well_formed _ formed
    exact ⟨spelled, fun named => spelled.mpr (unnamed_run steps named)⟩

theorem operands_given_example :
    let catalog : Catalog := Roster.empty.put ⟨"t_users", "users", []⟩
    let steps : List (Catalog × Edit) :=
      [.editTable 0 (.pick "t_users"), .editTable 0 (.asName "u"), .toggleColumn (.plain "u.id" "integer"),
        .setAlias "u.id" "", .addGrouping "", .addGrouping "u.id", .addComputed,
        .editComputed 0 (.expression "COUNT(*)"), .editComputed 0 (.asName "n")].map fun e => (catalog, e)
    let q := fresh.run steps
    q.issues = [] ∧ q.operands = ["u.id", "COUNT(*)", "n", "users", "u", "u.id"] ∧ q.Spelled ∧
      ∀ text ∈ q.operands, text ≠ "" := by
  intro catalog steps q
  have valid : q.issues = [] := by decide
  have named : ∀ s ∈ steps, NamesColumn s.2 := by
    have names : ∀ s ∈ steps, (match s.2 with | .toggleColumn c => c.name | _ => "u.id") ≠ "" := by decide
    intro s member c toggled
    simpa only [toggled] using names s member
  obtain ⟨given, -, -, edited⟩ := operands_given q valid
  have spelled := (edited steps rfl).2 named
  exact ⟨valid, by decide, spelled, given.mpr spelled⟩

-- The rules let a column pass that was selected without a name, and a snapshot with empty aliases and an empty
-- name to group by.
theorem operands_missing :
    let catalog : Catalog := Roster.empty.put ⟨"t_users", "users", []⟩
    let edited := fresh.run [(catalog, .editTable 0 (.pick "t_users")), (catalog, .toggleColumn (.plain "" "integer"))]
    let text := "\x7b\"tables\":[\x7b\"id\":\"t_users\",\"name\":\"users\",\"alias\":\"\"\x7d]," ++
      "\"columns\":\x7b\"id\":\x7b\"qualified_name\":\"id\",\"output_alias\":\"\"\x7d\x7d,\"group_by\":[\"\"]\x7d"
    edited.issues = [] ∧ "" ∈ edited.operands ∧ edited.statement .standard = "SELECT \nFROM users;" ∧
      ∃ read, (ofSnapshot text).toOption = some read ∧ read.issues = [] ∧ "" ∈ read.operands ∧
        read.statement .standard = "SELECT id AS \"\"\nFROM users AS \nGROUP BY ;" := by
  intro catalog edited text
  let read : Query :=
    { empty with
      sources := [⟨"t_users", "users", some ""⟩]
      columns := Roster.empty.put ("id", ⟨"id", "", none, some ""⟩)
      grouping := Roster.empty.put "" }
  exact ⟨by decide, by decide, by decide +kernel, read, by decide +kernel, by decide, by decide, by decide +kernel⟩

end Query
end QueryDraft
