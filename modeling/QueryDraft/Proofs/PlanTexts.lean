import QueryDraft.Proofs.PlanAgreement

/-!
The summaries of a plan beside the lines of the statement. For a query without issues a plan names tables, joins,
names to group by and sort keys in the words of the statement, with one difference: an output alias stands in quote
marks in the statement only.
-/

set_option autoImplicit false

namespace QueryDraft

/-! ## The lines of one stage -/

def linesOf (lines : List String) (stage : Stage) : List String :=
  lines.filter fun line => Stage.ofLine? line = some stage

theorem lines_of_opens (layout : List (Stage × String)) (opens : ∀ entry ∈ layout, entry.1.Opens entry.2)
    (stage : Stage) :
    linesOf (layout.map Prod.snd) stage = (layout.filter fun entry => entry.1 = stage).map Prod.snd := by
  rw [linesOf, List.filter_map]
  refine congrArg (List.map Prod.snd) (List.filter_congr fun entry member => ?_)
  rw [Function.comp_apply, Stage.of_line_opens _ _ (opens entry member)]
  simp only [Option.some.injEq]

/-! ## Joins and sort terms in words -/

namespace Join

-- What a JOIN line begins with, which is all that a plan says of the join.
def label (j : Join) (s : Source) : String := j.kind.text ++ " " ++ s.text s.name

def condition (j : Join) : String := j.left ++ " " ++ j.operator.text ++ " " ++ j.right

theorem item_label (j : Join) (s : Source) : j.item (s.text s.name) = j.label s ++ " ON " ++ j.condition := by
  simp only [item, label, condition, String.append_assoc]

theorem items_labelled (joins : List Join) (sources : List Source) :
    List.zipWith (fun j s => j.item (s.text s.name)) joins sources =
      List.zipWith (fun label j => label ++ " ON " ++ j.condition) (List.zipWith label joins sources) joins := by
  induction joins generalizing sources with
  | nil => rfl
  | cons j joins ih =>
      cases sources with
      | nil => rfl
      | cons s rest => rw [List.zipWith_cons_cons, List.zipWith_cons_cons, List.zipWith_cons_cons, item_label, ih]

end Join

def SortTerm.chosen? (t : SortTerm) : Option (SortKey × Direction) := t.key?.map fun k => (k, t.direction)

namespace Query

variable (q : Query)

def labels : List String := List.zipWith Join.label q.joins (q.sources.drop 1)

def sortTerms : List (SortKey × Direction) := q.sorting.filterMap SortTerm.chosen?

/-! ## Lines and summaries, stage by stage -/

theorem lines_of_stage (stage : Stage) :
    linesOf q.clauseLines stage =
      match stage with
      | .source => (q.sources.take 1).map fun s => "FROM " ++ s.text s.name
      | .join => List.zipWith (fun j s => j.item (s.text s.name)) q.joins (q.sources.drop 1)
      | .filter => (clause? "WHERE" (whereBody q.filters)).toList
      | .groupBy => q.groupByClause?.toList
      | .having => (clause? "HAVING" (havingBody q.groupFilters)).toList
      | .select => [q.selectClause]
      | .orderBy => (orderByClause? q.sorting).toList
      | .limit => q.limitClause?.toList := by
  have joins : List.zipWith (fun j s => (Stage.join, j.item (s.text s.name))) q.joins (q.sources.drop 1) =
      (List.zipWith (fun j s => j.item (s.text s.name)) q.joins (q.sources.drop 1)).map
        fun line => (Stage.join, line) := by
    rw [List.map_zipWith]
  rw [clause_present "WHERE" _ _ _ (where_body_eq_empty q.filters), group_by_present,
    clause_present "HAVING" _ _ _ (having_body_eq_empty q.groupFilters), order_by_present,
    ← q.layout_lines, lines_of_opens _ q.layout_opens, layout, joins]
  simp only [List.cons_append, List.filter_cons, List.filter_append, List.filter_map, List.map_append, List.map_map,
    Function.comp_def, List.map_id', apply_ite (List.filter _), apply_ite (List.map _)]
  cases stage <;> simp [-List.map_take]

theorem source_summary (paired : q.Paired) :
    ∃ driving, q.sources.take 1 = [driving] ∧ q.summary? .source = some (driving.text driving.name) := by
  obtain ⟨driving, rest, sources, -⟩ := paired.driving
  have named := paired.named driving (by rw [sources]; exact List.mem_cons_self)
  have picked : driving.isPicked = true := (Bool.and_eq_true_iff.mp named).1
  refine ⟨driving, by rw [sources]; rfl, ?_⟩
  rw [summary?, sources, List.find?_cons_of_pos picked, Option.map_some, label_of_named driving named]

theorem labels_length (paired : q.Paired) : q.labels.length = q.joins.length := by
  obtain ⟨driving, rest, sources, counts⟩ := paired.driving
  rw [labels, List.length_zipWith, sources, List.drop_succ_cons, List.drop_zero, counts, Nat.min_self]

theorem group_by_summary : q.groupByClause? = (q.summary? .groupBy).map fun names => "GROUP BY " ++ names := by
  rw [groupByClause?, summary?]
  split <;> rfl

theorem sort_terms_written (text : SortKey × Direction → String) :
    q.sorting.filterMap (fun t => t.key?.map fun k => text (k, t.direction)) = q.sortTerms.map text := by
  simp only [sortTerms, List.map_filterMap, SortTerm.chosen?, Option.map_map, Function.comp_def]

theorem order_by_summary :
    q.summary? .orderBy =
      if q.sortTerms = [] then none
      else some (", ".intercalate (q.sortTerms.map fun (k, direction) => k.name ++ " " ++ direction.text)) := by
  have names := q.sort_terms_written fun (k, direction) => k.name ++ " " ++ direction.text
  simp only [summary?, names, List.isEmpty_iff, List.map_eq_nil_iff]

theorem order_by_clause :
    orderByClause? q.sorting =
      if q.sortTerms = [] then none
      else some ("ORDER BY " ++
        ", ".intercalate (q.sortTerms.map fun (k, direction) => k.item ++ " " ++ direction.text)) := by
  have items : q.sorting.filterMap SortTerm.item? = _ :=
    q.sort_terms_written fun (k, direction) => k.item ++ " " ++ direction.text
  simp only [orderByClause?, items, List.isEmpty_iff, List.map_eq_nil_iff]

/-! ## Agreement -/

-- Without joins, and without sort keys, there is no line and the plan says so in words of its own.
structure PlanQuotes (q : Query) (lines : List String) : Prop where
  rows : q.plan.map PlanRow.stage = Stage.all
  source : ∀ row ∈ q.plan, row.stage = .source → linesOf lines .source = ["FROM " ++ row.summary]
  labelled : q.labels.length = q.joins.length ∧
    linesOf lines .join = List.zipWith (fun label j => label ++ " ON " ++ j.condition) q.labels q.joins
  join : ∀ row ∈ q.plan, row.stage = .join →
    row.summary =
      if q.labels = [] then Stage.join.idle
      else counted q.labels.length "join" "joins" ++ ": " ++ ", ".intercalate q.labels
  groupBy : ∀ row ∈ q.plan, row.stage = .groupBy →
    linesOf lines .groupBy = if row.enabled then ["GROUP BY " ++ row.summary] else []
  sorted : linesOf lines .orderBy =
    if q.sortTerms = [] then []
    else ["ORDER BY " ++ ", ".intercalate (q.sortTerms.map fun (k, direction) => k.item ++ " " ++ direction.text)]
  orderBy : ∀ row ∈ q.plan, row.stage = .orderBy →
    row.summary =
      if q.sortTerms = [] then Stage.orderBy.idle
      else ", ".intercalate (q.sortTerms.map fun (k, direction) => k.name ++ " " ++ direction.text)

/-- The plan of a query without issues quotes its statement: the driving table and the names to group by stand behind
FROM and GROUP BY as the plan has them, every JOIN line begins with what the plan lists for it, and the plan lists
the keys of the ORDER BY line with their directions, bare. -/
theorem plan_quotes (settings : Settings) (valid : q.issues = []) :
    ∃ lines, q.lines = .ok lines ∧ q.compile settings = .ok ("\n".intercalate lines ++ q.trailer settings ++ ";") ∧
      q.PlanQuotes lines := by
  have paired := paired_of_valid q valid
  refine ⟨q.clauseLines, lines_of_paired q paired, compile_of_valid settings q valid, ?_⟩
  constructor
  case rows =>
    rw [plan_rows]
    rfl
  case source =>
    intro row member stage
    obtain ⟨driving, first, summary⟩ := q.source_summary paired
    rw [lines_of_stage, ((q.mem_plan row).mp member).2, stage, summary]
    dsimp only
    rw [first]
    rfl
  case labelled =>
    refine ⟨q.labels_length paired, ?_⟩
    rw [lines_of_stage]
    exact Join.items_labelled _ _
  case join =>
    intro row member stage
    have none : q.labels = [] ↔ q.joins = [] := by
      rw [← List.length_eq_zero_iff, q.labels_length paired, List.length_eq_zero_iff]
    rw [((q.mem_plan row).mp member).2, stage, q.join_summary paired, if_congr none rfl rfl, q.labels_length paired]
    split <;> rfl
  case groupBy =>
    intro row member stage
    obtain ⟨enabled, summary⟩ := (q.mem_plan row).mp member
    rw [lines_of_stage, enabled, summary, stage]
    dsimp only
    rw [group_by_summary]
    cases q.summary? .groupBy <;> rfl
  case sorted =>
    rw [lines_of_stage]
    dsimp only
    rw [order_by_clause]
    split <;> rfl
  case orderBy =>
    intro row member stage
    rw [((q.mem_plan row).mp member).2, stage, order_by_summary]
    split <;> rfl

theorem plan_quotes_example :
    spendings.issues = [] ∧
      spendings.plan.map PlanRow.summary =
        ["users AS u", "2 joins: INNER JOIN orders, LEFT JOIN items", "1 condition", "u.id", "1 condition",
          "1 column, 1 custom expression", "spent DESC", "all rows from 20"] ∧
      ∃ lines, spendings.lines = .ok lines ∧
        spendings.compile .standard = .ok ("\n".intercalate lines ++ spendings.trailer .standard ++ ";") ∧
        spendings.PlanQuotes lines :=
  ⟨by decide, by decide +kernel, spendings.plan_quotes .standard (by decide)⟩

end Query
end QueryDraft
