import QueryDraft.Proofs.EditEffects
import QueryDraft.Proofs.IssueRules

/-!
The report of the grouping rule taken as a recipe. Grouping by a name takes the name off the report and changes no
other issue, and the report is gone once all its names are grouped by, in whatever order that was done.
-/

set_option autoImplicit false

namespace QueryDraft

namespace Query

variable (catalog : Catalog) (q : Query)

/-! ## Grouping by further names -/

theorem mem_add_grouping (name other : String) :
    other ∈ (q.addGrouping name).grouping.items ↔ other ∈ q.grouping.items ∨ other = name ∧ other ≠ "" := by
  rw [addGrouping]
  by_cases empty : name = ""
  · rw [if_pos empty, empty, and_not_self_iff, or_false]
  · have added := q.grouping.mem_keys_put name other
    rw [Roster.keys, Roster.keys, List.map_id, List.map_id] at added
    rw [if_neg empty, added]
    exact or_congr_right (iff_self_and.mpr fun same => same ▸ empty)

theorem add_grouping_frame (name : String) :
    q.addGrouping name = { q with grouping := (q.addGrouping name).grouping } := by
  rw [addGrouping]
  split <;> rfl

-- Such a run changes nothing but the grouping, and which names are in it does not depend on their order.
theorem grouped_run (names : List String) :
    ∃ grouping, q.applyAll catalog (names.map .addGrouping) = { q with grouping } ∧
      ∀ other, other ∈ grouping.items ↔ other ∈ q.grouping.items ∨ other ∈ names ∧ other ≠ "" := by
  induction names generalizing q with
  | nil => exact ⟨q.grouping, rfl, by simp⟩
  | cons name rest ih =>
      obtain ⟨grouping, same, members⟩ := ih (q.addGrouping name)
      refine ⟨grouping, same.trans ?_, fun other => ?_⟩
      · rw [q.add_grouping_frame name]
      · rw [members, mem_add_grouping, or_assoc, List.mem_cons, or_and_right]

/-! ## Issues with another grouping -/

def issuesAhead : List Issue :=
  q.tableIssues ++ q.alignmentIssues ++ endpointIssues 1 q.joins ++ q.projectionIssues

def issuesBehind : List Issue :=
  computedIssues 1 q.computed ++ aliasIssues 1 (q.selected.filterMap SelectedColumn.asName) q.computed ++
    attachmentIssues 1 q.joins (q.sources.drop 1)

-- What stands ahead and behind does not look at the grouping.
theorem issues_of_mixed (mixed : ∃ c ∈ q.selected, c.aggregate ≠ none) :
    q.issues = q.issuesAhead ++ (if q.ungrouped = [] then [] else [.ungroupedColumns q.ungrouped]) ++ q.issuesBehind := by
  have report : q.groupingIssues = if q.ungrouped = [] then [] else [.ungroupedColumns q.ungrouped] := by
    by_cases none : q.ungrouped = []
    · rw [if_pos none, groupingIssues]
      simp [none]
    · have reported := (mem_grouping_issues q _).mpr ⟨⟨mixed, none⟩, rfl⟩
      rw [groupingIssues, List.mem_ite_nil_right] at reported
      rw [if_neg none, groupingIssues, if_pos reported.1]
  simp only [issues, issuesAhead, issuesBehind, ← report, List.append_assoc]

theorem ungrouped_not_ahead (columns : List String) : .ungroupedColumns columns ∉ q.issuesAhead := by
  simp [issuesAhead, mem_table_issues, mem_alignment_issues, mem_endpoint_issues, mem_projection_issues]

theorem ungrouped_regrouped (grouping : Roster (id : String → String)) (names : List String)
    (named : ∀ c ∈ q.selected, c.name ≠ "")
    (members : ∀ other, other ∈ grouping.items ↔ other ∈ q.grouping.items ∨ other ∈ names ∧ other ≠ "") :
    ({ q with grouping } : Query).ungrouped = q.ungrouped.filter fun name => name ∉ names := by
  rw [ungrouped_eq, ungrouped_eq, List.filter_map, List.filter_filter]
  refine congrArg (List.map SelectedColumn.name) (List.filter_congr fun c selected => ?_)
  rw [Function.comp_apply, ← Bool.decide_and, decide_eq_decide]
  dsimp only
  rw [members, and_iff_left (named c selected), not_or, ← and_assoc]
  exact and_comm

/-- Grouping by all names that a report of ungrouped columns lists, in any order, removes the report and nothing
else. As long as some of them are missing the report stays in its place and lists these in their order. -/
theorem grouping_repaired (columns : List String) (named : ∀ c ∈ q.selected, c.name ≠ "")
    (reported : .ungroupedColumns columns ∈ q.issues) (names : List String) :
    let grouped := q.applyAll catalog (names.map .addGrouping)
    let missing := columns.filter fun name => name ∉ names
    (columns ⊆ names → grouped.issues = q.issues.erase (.ungroupedColumns columns)) ∧
      (¬ columns ⊆ names → missing ≠ [] ∧
        grouped.issues = q.issues.replace (.ungroupedColumns columns) (.ungroupedColumns missing)) := by
  intro grouped missing
  obtain ⟨mixed, some, same⟩ := (mem_issues q _).mp reported
  obtain ⟨grouping, regrouped, members⟩ := q.grouped_run catalog names
  rw [← ungrouped_eq] at same
  have before : q.issues = q.issuesAhead ++ .ungroupedColumns columns :: q.issuesBehind := by
    rw [q.issues_of_mixed mixed, ← same, if_neg some, List.append_assoc, List.singleton_append]
  have after : grouped.issues =
      q.issuesAhead ++ (if missing = [] then [] else [.ungroupedColumns missing]) ++ q.issuesBehind := by
    have left : ({ q with grouping } : Query).ungrouped = missing := by
      rw [q.ungrouped_regrouped grouping names named members, ← same]
    have rules := issues_of_mixed { q with grouping } mixed
    rw [left] at rules
    exact (congrArg issues regrouped).trans rules
  have complete : columns ⊆ names ↔ missing = [] := by
    simp [missing, List.filter_eq_nil_iff, List.subset_def]
  have ahead := q.ungrouped_not_ahead columns
  rw [complete, after, before]
  constructor
  · intro none
    rw [if_pos none, List.append_nil, List.erase_append_right _ ahead, List.erase_cons_head]
  · intro left
    rw [if_neg left, List.replace_append_right ahead, List.replace_cons_self, List.append_assoc, List.singleton_append]
    exact ⟨left, rfl⟩

-- Two columns share a name, and the names are grouped by in another order than the report has.
theorem grouping_repaired_example :
    let q : Query :=
      { empty with
        columns :=
          ⟨[("1", .plain "u.city" "text"), ("2", ⟨"u.age", "integer", some .avg, none⟩), ("3", .plain "u.land" "text"),
            ("4", .plain "u.city" "text")], by decide⟩
        computed := [⟨"1", ""⟩]
        grouping := Roster.empty.put "u.name" }
    (∀ c ∈ q.selected, c.name ≠ "") ∧
      q.issues = [.noTable, .ungroupedColumns ["u.city", "u.land", "u.city"], .emptyAlias 1] ∧
      (q.applyAll .empty [.addGrouping "u.land", .addGrouping "u.city"]).issues = [.noTable, .emptyAlias 1] ∧
      (q.applyAll .empty [.addGrouping "u.land"]).issues =
        [.noTable, .ungroupedColumns ["u.city", "u.city"], .emptyAlias 1] := by
  intro q
  have named : ∀ c ∈ q.selected, c.name ≠ "" := by decide
  have reported : .ungroupedColumns ["u.city", "u.land", "u.city"] ∈ q.issues := by decide
  obtain ⟨repaired, -⟩ := q.grouping_repaired .empty _ named reported ["u.land", "u.city"]
  obtain ⟨-, shortened⟩ := q.grouping_repaired .empty _ named reported ["u.land"]
  exact ⟨named, by decide, (repaired (by decide)).trans (by decide), (shortened (by decide)).2.trans (by decide)⟩

end Query
end QueryDraft
