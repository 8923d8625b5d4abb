import Mathlib.Logic.Relation
import QueryDraft.Proofs.ClauseLines

/-!
Parts of a query that nothing shows. However they are changed, one change after another, the issues and the
compiled text stay what they were.
-/

set_option autoImplicit false

namespace QueryDraft

namespace Query

-- A single change to a part that is not shown. An entry stands behind `front` and before `rest`.
inductive Inert (q : Query) : Query → Prop
  | addFilter {front rest : List Filter} (f : Filter) (stands : q.filters = front ++ rest)
      (hidden : f.isRenderable = false) : Inert q { q with filters := front ++ f :: rest }
  | removeFilter {front rest : List Filter} {f : Filter} (stands : q.filters = front ++ f :: rest)
      (hidden : f.isRenderable = false) : Inert q { q with filters := front ++ rest }
  | addGroupFilter {front rest : List GroupFilter} (f : GroupFilter) (stands : q.groupFilters = front ++ rest)
      (hidden : f.isRenderable = false) : Inert q { q with groupFilters := front ++ f :: rest }
  | removeGroupFilter {front rest : List GroupFilter} {f : GroupFilter} (stands : q.groupFilters = front ++ f :: rest)
      (hidden : f.isRenderable = false) : Inert q { q with groupFilters := front ++ rest }
  | addSort {front rest : List SortTerm} (t : SortTerm) (stands : q.sorting = front ++ rest) (hidden : t.key? = none) :
      Inert q { q with sorting := front ++ t :: rest }
  | removeSort {front rest : List SortTerm} {t : SortTerm} (stands : q.sorting = front ++ t :: rest)
      (hidden : t.key? = none) : Inert q { q with sorting := front ++ rest }
  | firstConnective {front rest : List Filter} {f : Filter} (connective : Connective)
      (stands : q.filters = front ++ f :: rest) (first : ∀ g ∈ front, g.isRenderable = false) :
      Inert q { q with filters := front ++ { f with connective } :: rest }
  | firstGroupConnective {front rest : List GroupFilter} {f : GroupFilter} (connective : Connective)
      (stands : q.groupFilters = front ++ f :: rest) (first : ∀ g ∈ front, g.isRenderable = false) :
      Inert q { q with groupFilters := front ++ { f with connective } :: rest }
  | nullaryOperand {front rest : List Filter} {f : Filter} (operand : Operand) (stands : q.filters = front ++ f :: rest)
      (nullary : f.operator.isNullary = true) : Inert q { q with filters := front ++ { f with operand } :: rest }
  | columnType (key type : String) :
      Inert q { q with columns := q.columns.adjust key (fun (key, c) => (key, { c with type })) fun _ => rfl }
  | tableId {front rest : List Source} {s : Source} (id : String) (stands : q.sources = front ++ s :: rest)
      (picked : s.id ≠ "") (given : id ≠ "") : Inert q { q with sources := front ++ { s with id } :: rest }
  | rekey (columns : Roster (Prod.fst : KeyedColumn → String)) (same : columns.items.map Prod.snd = q.selected) :
      Inert q { q with columns }

/-! ## What is shown -/

end Query

-- Of an id it only matters that there is one.
def Source.outline (s : Source) : Source := { s with id := if s.id = "" then "" else "picked" }

def SelectedColumn.outline (c : SelectedColumn) : SelectedColumn := { c with type := "" }

-- The parts of a query that its issues and its clauses are made from.
structure Outline where
  sources : List Source
  joins : List Join
  columns : List SelectedColumn
  computed : List ComputedColumn
  whereBody : String
  grouping : Roster (id : String → String)
  havingBody : String
  sorting : List String
  limit : Option UInt64
  offset : Option UInt64
  distinct : Bool

def Query.outline (q : Query) : Outline where
  sources := q.sources.map Source.outline
  joins := q.joins
  columns := q.selected.map SelectedColumn.outline
  computed := q.computed
  whereBody := whereBody q.filters
  grouping := q.grouping
  havingBody := havingBody q.groupFilters
  sorting := q.sorting.filterMap SortTerm.item?
  limit := q.limit
  offset := q.offset
  distinct := q.distinct

theorem named_outline (s : Source) : s.outline.isNamed = s.isNamed := by
  by_cases unset : s.id = "" <;> simp [Source.outline, Source.isNamed, Source.isPicked, unset]

namespace Query

-- The parts of two queries that agree, one by one.
theorem outline_parts (q r : Query) (same : q.outline = r.outline) :
    q.sources.map Source.outline = r.sources.map Source.outline ∧ q.joins = r.joins ∧
      q.selected.map SelectedColumn.outline = r.selected.map SelectedColumn.outline ∧ q.computed = r.computed ∧
      whereBody q.filters = whereBody r.filters ∧ q.grouping = r.grouping ∧
      havingBody q.groupFilters = havingBody r.groupFilters ∧
      q.sorting.filterMap SortTerm.item? = r.sorting.filterMap SortTerm.item? ∧ q.limit = r.limit ∧
      q.offset = r.offset ∧ q.distinct = r.distinct := by
  simpa only [outline, Outline.mk.injEq] using same

/-! ## Issues -/

theorem table_issues_outline (q r : Query) (sources : q.sources.map Source.outline = r.sources.map Source.outline) :
    q.tableIssues = r.tableIssues := by
  have named : ∀ tables : List Source,
      tables.head?.any Source.isNamed = (tables.map Source.outline).head?.any Source.isNamed := by
    intro tables
    cases tables with
    | nil => rfl
    | cons s rest => exact (named_outline s).symm
  rw [tableIssues, named, sources, ← named, ← tableIssues]

theorem attachment_issues_outline (position : Nat) (joins : List Join) (sources : List Source) :
    attachmentIssues position joins (sources.map Source.outline) = attachmentIssues position joins sources := by
  induction joins generalizing position sources with
  | nil => rfl
  | cons j joins ih =>
      cases sources with
      | nil => rfl
      | cons s rest => rw [List.map_cons, attachmentIssues, attachmentIssues, named_outline, ih]

section

variable (q r : Query) (columns : q.selected.map SelectedColumn.outline = r.selected.map SelectedColumn.outline)
include columns

-- What is asked of the columns without their types is answered alike.
theorem map_outline {β : Type} (f : SelectedColumn → β) (untyped : ∀ c, f c.outline = f c) :
    q.selected.map f = r.selected.map f := by
  have erased : ∀ items : List SelectedColumn, items.map f = (items.map SelectedColumn.outline).map f := by
    intro items
    rw [List.map_map]
    exact List.map_congr_left fun c _ => (untyped c).symm
  rw [erased, columns, ← erased]

theorem any_outline (p : SelectedColumn → Bool) (untyped : ∀ c, p c.outline = p c) :
    q.selected.any p = r.selected.any p := by
  have answers := congrArg (List.any · id) (map_outline q r columns p untyped)
  simpa only [List.any_map, Function.id_comp] using answers

theorem ungrouped_outline (grouping : q.grouping = r.grouping) : q.ungrouped = r.ungrouped := by
  have erased : ∀ q : Query, q.ungrouped = ((q.selected.map SelectedColumn.outline).filter fun c =>
      !c.isAggregated && !q.grouping.has c.name).map SelectedColumn.name := by
    intro q
    rw [ungrouped, List.filter_map, List.map_map]
    rfl
  rw [erased, erased, columns, grouping]

theorem grouping_issues_outline (grouping : q.grouping = r.grouping) : q.groupingIssues = r.groupingIssues := by
  rw [groupingIssues, groupingIssues, ungrouped_outline q r columns grouping, any_outline q r columns _ fun _ => rfl,
    any_outline q r columns (fun c => !c.isAggregated) fun _ => rfl]

theorem projection_issues_outline (computed : q.computed = r.computed) : q.projectionIssues = r.projectionIssues := by
  have count : q.columns.items.length = r.columns.items.length := by simpa [selected] using congrArg List.length columns
  have empty : q.columns.items.isEmpty = r.columns.items.isEmpty := by
    rw [Bool.eq_iff_iff, List.isEmpty_iff_length_eq_zero, List.isEmpty_iff_length_eq_zero, count]
  rw [projectionIssues, projectionIssues, empty, computed]

theorem aliases_outline : q.selected.filterMap SelectedColumn.asName = r.selected.filterMap SelectedColumn.asName := by
  have aliases := congrArg (List.filterMap id) (map_outline q r columns SelectedColumn.asName fun _ => rfl)
  simpa only [List.filterMap_map, Function.id_comp] using aliases

end

theorem issues_outline (q r : Query) (same : q.outline = r.outline) : q.issues = r.issues := by
  obtain ⟨sources, joins, columns, computed, -, grouping, -⟩ := outline_parts q r same
  have count : q.sources.length = r.sources.length := by simpa using congrArg List.length sources
  have alignment : q.alignmentIssues = r.alignmentIssues := by
    rw [alignmentIssues, alignmentIssues, Query.alignment, Query.alignment, count, joins]
  have attached : attachmentIssues 1 q.joins (q.sources.drop 1) = attachmentIssues 1 r.joins (r.sources.drop 1) := by
    rw [← attachment_issues_outline, List.map_drop, sources, joins, ← List.map_drop, attachment_issues_outline]
  rw [issues, issues, table_issues_outline q r sources, alignment, projection_issues_outline q r columns computed,
    grouping_issues_outline q r columns grouping, computed, aliases_outline q r columns, attached, joins]

/-! ## Clauses -/

theorem from_clause_outline (q r : Query) (sources : q.sources.map Source.outline = r.sources.map Source.outline) :
    q.fromClause = r.fromClause := by
  have shown : ∀ q : Query, q.fromClause = ({ q with sources := q.sources.map Source.outline } : Query).fromClause := by
    intro q
    unfold fromClause
    cases q.sources <;> rfl
  rw [shown, shown r, sources]
  rfl

theorem join_clauses_outline (position : Nat) (joins : List Join) (sources : List Source) :
    joinClauses position joins (sources.map Source.outline) = joinClauses position joins sources := by
  induction joins generalizing position sources with
  | nil => rfl
  | cons j joins ih =>
      cases sources with
      | nil => rfl
      | cons s rest =>
          rw [List.map_cons, joinClauses, joinClauses, ih]
          rfl

theorem lines_outline (q r : Query) (same : q.outline = r.outline) : q.lines = r.lines := by
  obtain ⟨sources, joins, columns, computed, filters, grouping, groupFilters, sorting, limit, offset, distinct⟩ :=
    outline_parts q r same
  have select : q.selectClause = r.selectClause := by
    rw [selectClause, selectClause, map_outline q r columns SelectedColumn.item fun _ => rfl, computed, distinct]
  have attached : joinClauses 1 q.joins (q.sources.drop 1) = joinClauses 1 r.joins (r.sources.drop 1) := by
    rw [← join_clauses_outline, List.map_drop, sources, ← List.map_drop, join_clauses_outline, joins]
  have groupBy : q.groupByClause? = r.groupByClause? := by
    rw [groupByClause?, groupByClause?, grouping]
  have orderBy : orderByClause? q.sorting = orderByClause? r.sorting := by
    rw [orderByClause?, orderByClause?, sorting]
  have limited : q.limitClause? = r.limitClause? := by
    rw [limitClause?, limitClause?, limit, offset]
  rw [lines, lines, select, from_clause_outline q r sources, attached, filters, groupBy, groupFilters, orderBy, limited]

theorem compile_outline (settings : Settings) (q r : Query) (same : q.outline = r.outline) :
    q.compile settings = r.compile settings := by
  obtain ⟨-, -, -, -, -, -, -, -, limit, offset, -⟩ := outline_parts q r same
  have trailer : q.trailer settings = r.trailer settings := by
    rw [Query.trailer, Query.trailer, limit, offset]
  rw [compile, compile, isValid, isValid, issues_outline q r same, lines_outline q r same, trailer]

/-! ## Changes -/

theorem filter_hidden {α : Type} (p : α → Bool) (front rest : List α) (a : α) (hidden : p a = false) :
    (front ++ a :: rest).filter p = (front ++ rest).filter p := by
  rw [List.filter_append, List.filter_cons_of_neg (by simp [hidden]), List.filter_append]

theorem sort_hidden (front rest : List SortTerm) (t : SortTerm) (hidden : t.key? = none) :
    (front ++ t :: rest).filterMap SortTerm.item? = (front ++ rest).filterMap SortTerm.item? := by
  have absent : t.item? = none := by
    rw [SortTerm.item?, hidden]
    rfl
  rw [List.filterMap_append, List.filterMap_cons_none absent, List.filterMap_append]

-- The connective belongs to the entries that are rendered, and the first of them has none.
theorem connect_first {α : Type} (p : α → Bool) (word : α → Connective) (text : α → String) (front rest : List α)
    (a b : α) (first : ∀ c ∈ front, p c = false) (shown : p b = p a) (same : text b = text a) :
    connect (((front ++ b :: rest).filter p).map fun a => (word a, text a)) =
      connect (((front ++ a :: rest).filter p).map fun a => (word a, text a)) := by
  have none : front.filter p = [] := List.filter_eq_nil_iff.mpr fun c member => by simp [first c member]
  rw [List.filter_append, List.filter_append, none, List.nil_append, List.nil_append]
  by_cases visible : p a = true
  · rw [List.filter_cons_of_pos visible, List.filter_cons_of_pos (shown.trans visible), List.map_cons, List.map_cons,
      connect, connect, same]
  · rw [List.filter_cons_of_neg visible, List.filter_cons_of_neg (by rwa [shown])]

theorem where_body_operand (front rest : List Filter) (f : Filter) (operand : Operand)
    (nullary : f.operator.isNullary = true) :
    whereBody (front ++ { f with operand } :: rest) = whereBody (front ++ f :: rest) := by
  have shown : ({ f with operand } : Filter).isRenderable = f.isRenderable := by
    simp [Filter.isRenderable, Filter.hasSubject, nullary]
  rw [whereBody, whereBody, List.filter_append, List.filter_append, List.filter_cons, List.filter_cons, shown]
  split
  · rw [List.map_append, List.map_append, List.map_cons, List.map_cons, Filter.item_of_nullary f operand nullary]
  · rfl

theorem columns_retyped (columns : Roster (Prod.fst : KeyedColumn → String)) (key type : String) :
    ((columns.adjust key (fun (key, c) => (key, { c with type })) fun _ => rfl).items.map Prod.snd).map
        SelectedColumn.outline = (columns.items.map Prod.snd).map SelectedColumn.outline := by
  rw [Roster.adjust, List.map_map, List.map_map, List.map_map]
  refine List.map_congr_left fun entry _ => ?_
  by_cases hit : entry.1 = key <;> simp [hit, SelectedColumn.outline]

theorem outline_inert (q r : Query) (change : q.Inert r) : r.outline = q.outline := by
  cases change with
  | addFilter f stands hidden =>
      refine congrArg (fun whereBody => { q.outline with whereBody }) ?_
      rw [stands, whereBody, whereBody, filter_hidden _ _ _ f hidden]
  | removeFilter stands hidden =>
      refine congrArg (fun whereBody => { q.outline with whereBody }) ?_
      rw [stands, whereBody, whereBody, filter_hidden _ _ _ _ hidden]
  | addGroupFilter f stands hidden =>
      refine congrArg (fun havingBody => { q.outline with havingBody }) ?_
      rw [stands, havingBody, havingBody, filter_hidden _ _ _ f hidden]
  | removeGroupFilter stands hidden =>
      refine congrArg (fun havingBody => { q.outline with havingBody }) ?_
      rw [stands, havingBody, havingBody, filter_hidden _ _ _ _ hidden]
  | addSort t stands hidden =>
      refine congrArg (fun sorting => { q.outline with sorting }) ?_
      rw [stands, sort_hidden _ _ t hidden]
  | removeSort stands hidden =>
      refine congrArg (fun sorting => { q.outline with sorting }) ?_
      rw [stands, sort_hidden _ _ _ hidden]
  | firstConnective connective stands first =>
      refine congrArg (fun whereBody => { q.outline with whereBody }) ?_
      rw [stands]
      exact connect_first _ _ _ _ _ _ _ first rfl rfl
  | firstGroupConnective connective stands first =>
      refine congrArg (fun havingBody => { q.outline with havingBody }) ?_
      rw [stands]
      exact connect_first _ _ _ _ _ _ _ first rfl rfl
  | nullaryOperand operand stands nullary =>
      refine congrArg (fun whereBody => { q.outline with whereBody }) ?_
      rw [stands]
      exact where_body_operand _ _ _ operand nullary
  | columnType key type =>
      exact congrArg (fun columns => { q.outline with columns }) (columns_retyped q.columns key type)
  | @tableId front rest s id stands picked given =>
      refine congrArg (fun sources => { q.outline with sources }) ?_
      have same : ({ s with id } : Source).outline = s.outline := by
        simp [Source.outline, picked, given]
      rw [stands, List.map_append, List.map_append, List.map_cons, List.map_cons, same]
  | rekey columns same =>
      refine congrArg (fun columns => { q.outline with columns }) ?_
      rw [selected, same]

theorem outline_inert_run (q r : Query) (changes : Relation.ReflTransGen Inert q r) : r.outline = q.outline := by
  induction changes with
  | refl => rfl
  | tail _ change ih => exact (outline_inert _ _ change).trans ih

/-- Changes to parts that are not shown, in any number and order, leave the issues and the compiled text as they
are. The issues do not depend on filters, group filters, sort terms, limit, offset and distinct at all. -/
theorem inert_unnoticed (q r : Query) (changes : Relation.ReflTransGen Inert q r) :
    r.issues = q.issues ∧ (∀ settings, r.compile settings = q.compile settings) ∧
      ∀ filters groupFilters sorting limit offset distinct,
        ({ q with filters, groupFilters, sorting, limit, offset, distinct } : Query).issues = q.issues := by
  have same := outline_inert_run q r changes
  exact ⟨issues_outline r q same, fun settings => compile_outline settings r q same, fun _ _ _ _ _ _ => rfl⟩

-- The unfinished filter in front goes, the one behind it gets another connective, and a table another id.
theorem inert_unnoticed_example :
    let changed : Query :=
      { spendings with
        filters := [⟨"u.name", .compare .ne, .text "Ann; Bob", .and⟩]
        sources := [⟨"people", "users", some "u"⟩, ⟨"t_orders", "orders", none⟩, ⟨"t_items", "items", none⟩]
        columns := Roster.empty.put ("0", .plain "u.id" "integer") }
    Relation.ReflTransGen Inert spendings changed ∧ changed.issues = spendings.issues ∧ spendings.issues = [] ∧
      ∀ settings, changed.compile settings = spendings.compile settings := by
  intro changed
  let named : Filter := ⟨"u.name", .compare .ne, .text "Ann; Bob", .or⟩
  let finished : Query := { spendings with filters := [named] }
  let reworded : Query := { spendings with filters := changed.filters }
  let picked : Query := { reworded with sources := changed.sources }
  have dropped : spendings.Inert finished := @Inert.removeFilter spendings [] [named] .blank rfl rfl
  have worded : finished.Inert reworded := @Inert.firstConnective finished [] [] named .and rfl nofun
  have renumbered : reworded.Inert picked :=
    @Inert.tableId reworded [] _ ⟨"t_users", "users", some "u"⟩ "people" rfl (by decide) (by decide)
  have keyed : picked.Inert changed := .rekey _ rfl
  have changes := (((Relation.ReflTransGen.single dropped).tail worded).tail renumbered).tail keyed
  obtain ⟨issues, text, -⟩ := inert_unnoticed spendings changed changes
  exact ⟨changes, issues, by decide, text⟩

end Query
end QueryDraft
