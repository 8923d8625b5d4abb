import QueryDraft.Proofs.QuotedText
import QueryDraft.Query.Plan

/-!
The lines of a statement, each with the stage it belongs to and the condition under which it stands. The
words a line begins with tell its stage, whatever names and expressions follow them.
-/

set_option autoImplicit false

namespace QueryDraft

/-! ## The stage of a line -/

namespace Stage

-- What a line of a stage begins with: a JOIN line with the kind of its join, any other with the stage's name.
def heads : Stage → List String
  | .join => JoinKind.all.map JoinKind.text
  | stage => [stage.name]

def ofLine? (line : String) : Option Stage :=
  all.find? fun stage => stage.heads.any fun head => (head ++ " ").toList.isPrefixOf line.toList

def Opens (stage : Stage) (line : String) : Prop := ∃ head ∈ stage.heads, ∃ rest, line = head ++ " " ++ rest

theorem of_line_opens (stage : Stage) (line : String) (opens : stage.Opens line) : ofLine? line = some stage := by
  obtain ⟨head, member, rest, rfl⟩ := opens
  cases stage with
  | join =>
      obtain ⟨kind, -, rfl⟩ := List.mem_map.mp member
      cases kind <;> simp [ofLine?, all, heads, name, JoinKind.all, JoinKind.text]
  | _ =>
      obtain rfl := List.mem_singleton.mp member
      simp [ofLine?, all, heads, name, JoinKind.all, JoinKind.text]

theorem opens_append (stage : Stage) (line extra : String) (opens : stage.Opens line) : stage.Opens (line ++ extra) := by
  obtain ⟨head, member, rest, rfl⟩ := opens
  exact ⟨head, member, rest ++ extra, String.append_assoc⟩

end Stage

/-! ## The optional clauses -/

theorem group_filter_item_ne_empty (f : GroupFilter) : f.item ≠ "" := by
  simp [GroupFilter.item]

theorem having_body_eq_empty (filters : List GroupFilter) :
    Query.havingBody filters = "" ↔ filters.filter GroupFilter.isRenderable = [] :=
  connect_shown_eq_empty _ _ _ _ group_filter_item_ne_empty

theorem clause_present {α : Type} (keyword body : String) (entries : List α) (shown : α → Bool)
    (empty : body = "" ↔ entries.filter shown = []) :
    (clause? keyword body).toList = if entries.any shown then [keyword ++ " " ++ body] else [] := by
  rw [clause?, if_congr empty rfl rfl]
  by_cases absent : entries.filter shown = []
  · have none : ¬ entries.any shown = true := by simpa [List.filter_eq_nil_iff] using absent
    rw [if_pos absent, if_neg none]
    rfl
  · have some : entries.any shown = true := by simpa [List.filter_eq_nil_iff] using absent
    rw [if_neg absent, if_pos some]
    rfl

theorem sort_items_eq_nil (terms : List SortTerm) :
    terms.filterMap SortTerm.item? = [] ↔ (terms.any fun t => t.key?.isSome) = false := by
  simp [SortTerm.item?]

namespace Query

variable (q : Query)

-- Every clause under the condition it stands under: the joins go with the tables after the first.
def layout : List (Stage × String) :=
  (Stage.select, q.selectClause) :: (q.sources.take 1).map (fun s => (Stage.source, "FROM " ++ s.text s.name)) ++
    List.zipWith (fun j s => (Stage.join, j.item (s.text s.name))) q.joins (q.sources.drop 1) ++
    (if q.filters.any Filter.isRenderable then [(Stage.filter, "WHERE " ++ whereBody q.filters)] else []) ++
    (if q.grouping.items ≠ [] then [(Stage.groupBy, "GROUP BY " ++ ", ".intercalate q.grouping.items)] else []) ++
    (if q.groupFilters.any GroupFilter.isRenderable then
        [(Stage.having, "HAVING " ++ havingBody q.groupFilters)] else []) ++
    (if q.sorting.any fun t => t.key?.isSome then
      [(Stage.orderBy, "ORDER BY " ++ ", ".intercalate (q.sorting.filterMap SortTerm.item?))] else []) ++
    q.limitClause?.toList.map fun line => (Stage.limit, line)

theorem group_by_present :
    q.groupByClause?.toList =
      if q.grouping.items ≠ [] then ["GROUP BY " ++ ", ".intercalate q.grouping.items] else [] := by
  rw [groupByClause?]
  cases q.grouping.items <;> simp

theorem order_by_present (terms : List SortTerm) :
    (orderByClause? terms).toList =
      if terms.any fun t => t.key?.isSome then ["ORDER BY " ++ ", ".intercalate (terms.filterMap SortTerm.item?)]
      else [] := by
  rw [orderByClause?]
  have absent := sort_items_eq_nil terms
  cases shown : terms.any fun t => t.key?.isSome with
  | false => simp [absent.mpr shown]
  | true =>
      have some : terms.filterMap SortTerm.item? ≠ [] := by
        rw [ne_eq, absent, shown]
        simp
      simp [some]

theorem layout_lines : q.layout.map Prod.snd = q.clauseLines := by
  rw [clause_lines_eq, clause_present "WHERE" _ _ _ (where_body_eq_empty q.filters), group_by_present,
    clause_present "HAVING" _ _ _ (having_body_eq_empty q.groupFilters), order_by_present]
  simp only [layout, List.map_append, List.map_cons, List.map_map, List.map_zipWith, apply_ite (List.map Prod.snd),
    List.map_nil, Function.comp_def, List.map_id', List.append_assoc, List.cons_append]
  rfl

theorem select_opens : Stage.select.Opens q.selectClause := by
  refine ⟨"SELECT", List.mem_singleton_self _, ?_⟩
  unfold selectClause
  cases q.distinct with
  | false => exact ⟨_, rfl⟩
  | true => exact ⟨"DISTINCT " ++ _, by rw [← String.append_assoc]; rfl⟩

theorem limit_opens (line : String) (limit : line ∈ q.limitClause?.toList) : Stage.limit.Opens line := by
  obtain ⟨n, -, rfl⟩ := Option.map_eq_some_iff.mp (Option.mem_toList.mp limit)
  refine ⟨"LIMIT", List.mem_singleton_self _, ?_⟩
  cases q.offset with
  | none => exact ⟨_, rfl⟩
  | some offset => exact ⟨_, by simp only [String.append_assoc]; rfl⟩

theorem join_opens (j : Join) (source : String) : Stage.join.Opens (j.item source) := by
  refine ⟨j.kind.text, ?_, source ++ " ON " ++ j.left ++ " " ++ j.operator.text ++ " " ++ j.right, ?_⟩
  · cases j.kind <;> simp [Stage.heads, JoinKind.all]
  · simp only [Join.item, String.append_assoc]

theorem layout_opens : ∀ entry ∈ q.layout, entry.1.Opens entry.2 := by
  intro entry member
  simp only [layout, List.mem_append, List.mem_cons, List.mem_ite_nil_right, List.mem_map,
    List.not_mem_nil, or_false] at member
  rcases member with (((((((rfl | ⟨s, -, rfl⟩) | join) | ⟨-, rfl⟩) | ⟨-, rfl⟩) | ⟨-, rfl⟩) | ⟨-, rfl⟩) |
      ⟨line, limit, rfl⟩)
  · exact q.select_opens
  · exact ⟨_, List.mem_singleton_self _, _, rfl⟩
  · rw [← List.map_uncurry_zip_eq_zipWith] at join
    obtain ⟨⟨j, s⟩, -, rfl⟩ := List.mem_map.mp join
    exact join_opens j _
  · exact ⟨_, List.mem_singleton_self _, _, rfl⟩
  · exact ⟨_, List.mem_singleton_self _, _, rfl⟩
  · exact ⟨_, List.mem_singleton_self _, _, rfl⟩
  · exact ⟨_, List.mem_singleton_self _, _, rfl⟩
  · exact q.limit_opens line limit

-- The stage of every line: one for every join, at most one for every other stage.
def stages : List Stage :=
  [Stage.select, Stage.source] ++ List.replicate q.joins.length Stage.join ++
    (if q.filters.any Filter.isRenderable then [Stage.filter] else []) ++
    (if q.grouping.items ≠ [] then [Stage.groupBy] else []) ++
    (if q.groupFilters.any GroupFilter.isRenderable then [Stage.having] else []) ++
    (if q.sorting.any fun t => t.key?.isSome then [Stage.orderBy] else []) ++
    (if q.limit.isSome then [Stage.limit] else [])

theorem layout_stages (paired : q.Paired) : q.layout.map Prod.fst = q.stages := by
  obtain ⟨driving, rest, sources, counts⟩ := paired.driving
  have joins : (List.zipWith (fun j s => (Stage.join, j.item (s.text s.name))) q.joins rest).map Prod.fst =
      List.replicate q.joins.length .join := by
    rw [List.map_zipWith, List.eq_replicate_iff]
    refine ⟨by rw [List.length_zipWith, counts, Nat.min_self], fun stage member => ?_⟩
    rw [← List.map_uncurry_zip_eq_zipWith] at member
    obtain ⟨pair, -, rfl⟩ := List.mem_map.mp member
    rfl
  have limit : q.limitClause?.toList.map (fun _ => Stage.limit) = if q.limit.isSome then [.limit] else [] := by
    rw [limitClause?]
    cases q.limit <;> rfl
  simp only [layout, stages, sources, List.map_append, List.map_cons, List.map_map, joins, apply_ite (List.map Prod.fst),
    List.map_nil, List.take_succ_cons, List.take_zero, List.drop_succ_cons, List.drop_zero, Function.comp_def, limit]

-- Three tables, an unfinished filter and an unfinished sort term, and an OFFSET without a LIMIT.
def spendings : Query :=
  { empty with
    sources := [⟨"t_users", "users", some "u"⟩, ⟨"t_orders", "orders", none⟩, ⟨"t_items", "items", none⟩]
    joins := [⟨.inner, "u.id", .eq, "orders.user_id"⟩, ⟨.left, "orders.id", .eq, "items.order_id"⟩]
    columns := Roster.empty.put ("u.id", .plain "u.id" "integer")
    computed := [⟨"SUM(items.price)", "spent"⟩]
    filters := [.blank, ⟨"u.name", .compare .ne, .text "Ann; Bob", .or⟩]
    grouping := Roster.empty.put "u.id"
    groupFilters := [⟨.sum, "items.price", .gt, "10", .and⟩]
    sorting := [⟨some (.output "spent"), .desc⟩, .blank]
    offset := some 20 }

example : spendings.stages = [.select, .source, .join, .join, .filter, .groupBy, .having, .orderBy] := by decide

end Query
end QueryDraft
