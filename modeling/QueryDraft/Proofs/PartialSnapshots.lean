import QueryDraft.Proofs.Excerpts
import QueryDraft.Proofs.Snapshot

/-!
Snapshots that others have changed: in the query and in every record inside, members stand in another order,
some are gone and some are not known. Such a snapshot is read as the query it was written from, the parts that
are gone at their defaults.
-/

set_option autoImplicit false

namespace QueryDraft

open Json
open Number

/-! ## What is left of a record -/

def Source.only (s : Source) (kept : String → Bool) : Source where
  id := if kept "id" then s.id else ""
  name := if kept "name" then s.name else ""
  asName := if kept "alias" then s.asName else none

abbrev Source.Cut := Source.codec.Cut Source.only

def Join.only (j : Join) (kept : String → Bool) : Join where
  kind := if kept "join_type" then j.kind else .inner
  left := if kept "left_column" then j.left else ""
  operator := if kept "operator" then j.operator else .eq
  right := if kept "right_column" then j.right else ""

abbrev Join.Cut := Join.codec.Cut Join.only

def SelectedColumn.only (c : SelectedColumn) (kept : String → Bool) : SelectedColumn where
  name := if kept "qualified_name" then c.name else ""
  type := if kept "column_type" then c.type else ""
  aggregate := if kept "aggregation" then c.aggregate else none
  asName := if kept "output_alias" then c.asName else none

abbrev SelectedColumn.Cut := SelectedColumn.codec.Cut SelectedColumn.only

def ComputedColumn.only (c : ComputedColumn) (kept : String → Bool) : ComputedColumn where
  expression := if kept "expression" then c.expression else ""
  asName := if kept "output_alias" then c.asName else ""

abbrev ComputedColumn.Cut := ComputedColumn.codec.Cut ComputedColumn.only

def Filter.only (f : Filter) (kept : String → Bool) : Filter where
  subject := if kept "subject" then f.subject else ""
  operator := if kept "operator" then f.operator else .compare .eq
  operand := if kept "value" then f.operand else .text ""
  connective := if kept "logic" then f.connective else .and

abbrev Filter.Cut := Filter.codec.Cut Filter.only

def GroupFilter.only (f : GroupFilter) (kept : String → Bool) : GroupFilter where
  aggregate := if kept "aggregation" then f.aggregate else .count
  column := if kept "column" then f.column else ""
  operator := if kept "operator" then f.operator else .gt
  bound := if kept "value" then f.bound else ""
  connective := if kept "logic" then f.connective else .and

abbrev GroupFilter.Cut := GroupFilter.codec.Cut GroupFilter.only

def SortTerm.only (t : SortTerm) (kept : String → Bool) : SortTerm where
  reference := if kept "reference" then t.reference else none
  direction := if kept "direction" then t.direction else .asc

abbrev SortTerm.Cut := SortTerm.codec.Cut SortTerm.only

def Query.only (q : Query) (kept : String → Bool) : Query where
  sources := if kept "tables" then q.sources else []
  joins := if kept "joins" then q.joins else []
  columns := if kept "columns" then q.columns else .empty
  computed := if kept "custom_columns" then q.computed else []
  filters := if kept "conditions" then q.filters else []
  grouping := if kept "group_by" then q.grouping else .empty
  groupFilters := if kept "having" then q.groupFilters else []
  sorting := if kept "order_by" then q.sorting else []
  limit := if kept "limit" then q.limit else none
  offset := if kept "offset" then q.offset else none
  distinct := if kept "distinct" then q.distinct else false

/-! ## Records -/

theorem source_cut (s : Source) (v : Value) (left : Source) (cut : s.Cut v left) : Source.codec.read v = .ok left :=
  Shape.cut_read _ _ Source.only s
    (.cons (fill_lossless _ _ _ _ _ _ text_lossless fun p => by simp [Source.only])
      (.cons (fill_lossless _ _ _ _ _ _ text_lossless fun p => by simp [Source.only])
        (.cons (fill_lossless _ _ _ _ _ _ optional_text_lossless fun p => by simp [Source.only]) .nil)))
    (by decide) rfl v left cut

theorem join_cut (j : Join) (v : Value) (left : Join) (cut : j.Cut v left) : Join.codec.read v = .ok left :=
  Shape.cut_read _ _ Join.only j
    (.cons (fill_lossless _ _ _ _ _ _ join_kind_lossless fun p => by simp [Join.only])
      (.cons (fill_lossless _ _ _ _ _ _ text_lossless fun p => by simp [Join.only])
        (.cons (fill_lossless _ _ _ _ _ _ comparison_lossless fun p => by simp [Join.only])
          (.cons (fill_lossless _ _ _ _ _ _ text_lossless fun p => by simp [Join.only]) .nil))))
    (by decide) rfl v left cut

theorem selected_column_cut (c : SelectedColumn) (v : Value) (left : SelectedColumn) (cut : c.Cut v left) :
    SelectedColumn.codec.read v = .ok left :=
  Shape.cut_read _ _ SelectedColumn.only c
    (.cons (fill_lossless _ _ _ _ _ _ text_lossless fun p => by simp [SelectedColumn.only])
      (.cons (fill_lossless _ _ _ _ _ _ text_lossless fun p => by simp [SelectedColumn.only])
        (.cons (fill_lossless _ _ _ _ _ _ optional_aggregate_lossless fun p => by simp [SelectedColumn.only])
          (.cons (fill_lossless _ _ _ _ _ _ optional_text_lossless fun p => by simp [SelectedColumn.only]) .nil))))
    (by decide) rfl v left cut

theorem computed_column_cut (c : ComputedColumn) (v : Value) (left : ComputedColumn) (cut : c.Cut v left) :
    ComputedColumn.codec.read v = .ok left :=
  Shape.cut_read _ _ ComputedColumn.only c
    (.cons (fill_lossless _ _ _ _ _ _ text_lossless fun p => by simp [ComputedColumn.only])
      (.cons (fill_lossless _ _ _ _ _ _ text_lossless fun p => by simp [ComputedColumn.only]) .nil))
    (by decide) rfl v left cut

theorem group_filter_cut (f : GroupFilter) (v : Value) (left : GroupFilter) (cut : f.Cut v left) :
    GroupFilter.codec.read v = .ok left :=
  Shape.cut_read _ _ GroupFilter.only f
    (.cons (fill_lossless _ _ _ _ _ _ aggregate_lossless fun p => by simp [GroupFilter.only])
      (.cons (fill_lossless _ _ _ _ _ _ text_lossless fun p => by simp [GroupFilter.only])
        (.cons (fill_lossless _ _ _ _ _ _ comparison_lossless fun p => by simp [GroupFilter.only])
          (.cons (fill_lossless _ _ _ _ _ _ text_lossless fun p => by simp [GroupFilter.only])
            (.cons (fill_lossless _ _ _ _ _ _ connective_lossless fun p => by simp [GroupFilter.only]) .nil)))))
    (by decide) rfl v left cut

theorem sort_term_cut (t : SortTerm) (v : Value) (left : SortTerm) (cut : t.Cut v left) :
    SortTerm.codec.read v = .ok left :=
  Shape.cut_read _ _ SortTerm.only t
    (.cons (fill_lossless _ _ _ _ _ _ optional_key_lossless fun p => by simp [SortTerm.only])
      (.cons (fill_lossless _ _ _ _ _ _ direction_lossless fun p => by simp [SortTerm.only]) .nil))
    (by decide) rfl v left cut

-- A number has to come back from its text as it was.
theorem filter_cut (f : Filter) (steady : ∀ x, f.operand = .float x → approximate x.numeral = some x) (v : Value)
    (left : Filter) (cut : f.Cut v left) : Filter.codec.read v = .ok left := by
  have operand : Operand.codec.read (Operand.codec.write f.operand) = .ok f.operand := by
    have same : f.operand.reread = some f.operand := by
      cases float : f.operand with
      | float x => rw [Operand.reread, steady x float, Option.map_some]
      | _ => rfl
    rw [(operand_returns f.operand).reads, same]
    rfl
  exact Shape.cut_read _ _ Filter.only f
    (.cons (fill_lossless _ _ _ _ _ _ text_lossless fun p => by simp [Filter.only])
      (.cons (fill_lossless _ _ _ _ _ _ filter_op_lossless fun p => by simp [Filter.only])
        (.cons (fill_read _ _ _ _ _ _ _ operand fun p => by simp [Filter.only])
          (.cons (fill_lossless _ _ _ _ _ _ connective_lossless fun p => by simp [Filter.only]) .nil))))
    (by decide) rfl v left cut

-- A column stays under its key.
def KeyedColumn.Cut (entry : KeyedColumn) (m : String × Value) (left : KeyedColumn) : Prop :=
  m.1 = entry.1 ∧ left.1 = entry.1 ∧ entry.2.Cut m.2 left.2

theorem columns_cut (entries : List KeyedColumn) (members : List (String × Value)) (left : List KeyedColumn)
    (each : Each KeyedColumn.Cut entries members left) (columns : Roster (Prod.fst : KeyedColumn → String)) :
    Query.readColumns true (members.map fun (k, v) => (some k, v)) columns = .ok (left.foldl Roster.put columns) := by
  induction each generalizing columns with
  | nil => rfl
  | @cons entry m column _ _ _ first _ ih =>
      obtain ⟨key, same, cut⟩ := first
      have read := selected_column_cut entry.2 m.2 column.2 cut
      rw [List.map_cons, Query.readColumns, read, key, ← same]
      exact ih (columns.put column)

/-! ## Queries -/

namespace Query

-- The members of a written query with the records inside them changed, and the query that has what is left of
-- those records.
inductive Inside (q : Query) : List (String × Value) → Query → Prop
  | intro {tableValues joinValues computedValues filterValues groupFilterValues sortValues : List Value}
      {columnValues : List (String × Value)} {sources : List Source} {joins : List Join}
      {columns : Roster (Prod.fst : KeyedColumn → String)} {computed : List ComputedColumn} {filters : List Filter}
      {groupFilters : List GroupFilter} {sorting : List SortTerm}
      (tablesCut : Each Source.Cut q.sources tableValues sources)
      (joinsCut : Each Join.Cut q.joins joinValues joins)
      (columnsCut : Each KeyedColumn.Cut q.columns.items columnValues columns.items)
      (computedCut : Each ComputedColumn.Cut q.computed computedValues computed)
      (filtersCut : Each Filter.Cut q.filters filterValues filters)
      (groupFiltersCut : Each GroupFilter.Cut q.groupFilters groupFilterValues groupFilters)
      (sortingCut : Each SortTerm.Cut q.sorting sortValues sorting) :
      Inside q
        [("tables", .list tableValues), ("joins", .list joinValues), ("columns", .record columnValues),
          ("custom_columns", .list computedValues), ("conditions", .list filterValues),
          ("group_by", groupingCodec.write q.grouping), ("having", .list groupFilterValues),
          ("order_by", .list sortValues), ("limit", (Codec.optional .natural).write q.limit),
          ("offset", (Codec.optional .natural).write q.offset), ("distinct", Codec.flag.write q.distinct)]
        { q with sources, joins, columns, computed, filters, groupFilters, sorting }

-- A snapshot of `q` changed in the query and in the records inside, and what is left of `q`.
def Cut (q : Query) (v : Value) (left : Query) : Prop :=
  ∃ fields inner kept members, q.Inside fields inner ∧ Excerpt fields kept members ∧ v = .record members ∧
    left = inner.only (named kept)

theorem cut_read (q : Query) (steady : ∀ f ∈ q.filters, ∀ x, f.operand = .float x → approximate x.numeral = some x)
    (v : Value) (left : Query) (cut : q.Cut v left) : codec.read v = .ok left := by
  obtain ⟨fields, inner, kept, members, ⟨tables, joins, columns, computed, filters, groupFilters, sorting⟩, excerpt,
    rfl, rfl⟩ := cut
  have tablesRead := each_read Source.codec _ _ _ _ tables fun s _ => source_cut s
  have joinsRead := each_read Join.codec _ _ _ _ joins fun j _ => join_cut j
  have columnsRead := (columns_cut _ _ _ columns .empty).trans (congrArg Except.ok (Roster.of_list_items _))
  have computedRead := each_read ComputedColumn.codec _ _ _ _ computed fun c _ => computed_column_cut c
  have filtersRead := each_read Filter.codec _ _ _ _ filters fun f member => filter_cut f (steady f member)
  have groupFiltersRead := each_read GroupFilter.codec _ _ _ _ groupFilters fun f _ => group_filter_cut f
  have sortingRead := each_read SortTerm.codec _ _ _ _ sorting fun t _ => sort_term_cut t
  refine Shape.read_excerpt _ (Query.only _) _ ?_ (by decide) _ rfl kept members excerpt
  exact .cons (fill_read _ _ _ _ _ _ _ tablesRead fun p => by simp [Query.only])
    (.cons (fill_read _ _ _ _ _ _ _ joinsRead fun p => by simp [Query.only])
      (.cons (fill_read _ _ _ _ _ _ _ columnsRead fun p => by simp [Query.only])
        (.cons (fill_read _ _ _ _ _ _ _ computedRead fun p => by simp [Query.only])
          (.cons (fill_read _ _ _ _ _ _ _ filtersRead fun p => by simp [Query.only])
            (.cons (fill_lossless _ _ _ _ _ _ grouping_lossless fun p => by simp [Query.only])
              (.cons (fill_read _ _ _ _ _ _ _ groupFiltersRead fun p => by simp [Query.only])
                (.cons (fill_read _ _ _ _ _ _ _ sortingRead fun p => by simp [Query.only])
                  (.cons (fill_lossless _ _ _ _ _ _ optional_natural_lossless fun p => by simp [Query.only])
                    (.cons (fill_lossless _ _ _ _ _ _ optional_natural_lossless fun p => by simp [Query.only])
                      (.cons (fill_lossless _ _ _ _ _ _ flag_lossless fun p => by simp [Query.only]) .nil))))))))))

/-- A snapshot as it was written is one with nothing changed. -/
theorem snapshot_whole (q : Query) : q.Cut (codec.write q) q ∧ Spells q.snapshot (codec.write q) := by
  constructor
  · have tables : Each Source.Cut q.sources (q.sources.map Source.codec.write) q.sources :=
      each_whole _ _ _ fun s => Shape.cut_whole _ _ _ s (by simp [Source.only, named, Field.of])
    have joins : Each Join.Cut q.joins (q.joins.map Join.codec.write) q.joins :=
      each_whole _ _ _ fun j => Shape.cut_whole _ _ _ j (by simp [Join.only, named, Field.of])
    have columns : Each KeyedColumn.Cut q.columns.items
        (q.columns.items.map fun entry => (entry.1, SelectedColumn.codec.write entry.2)) q.columns.items :=
      each_whole _ _ _ fun entry =>
        ⟨rfl, rfl, Shape.cut_whole _ _ _ entry.2 (by simp [SelectedColumn.only, named, Field.of])⟩
    have computed : Each ComputedColumn.Cut q.computed (q.computed.map ComputedColumn.codec.write) q.computed :=
      each_whole _ _ _ fun c => Shape.cut_whole _ _ _ c (by simp [ComputedColumn.only, named, Field.of])
    have filters : Each Filter.Cut q.filters (q.filters.map Filter.codec.write) q.filters :=
      each_whole _ _ _ fun f => Shape.cut_whole _ _ _ f (by simp [Filter.only, named, Field.of])
    have groupFilters : Each GroupFilter.Cut q.groupFilters (q.groupFilters.map GroupFilter.codec.write) q.groupFilters :=
      each_whole _ _ _ fun f => Shape.cut_whole _ _ _ f (by simp [GroupFilter.only, named, Field.of])
    have sorting : Each SortTerm.Cut q.sorting (q.sorting.map SortTerm.codec.write) q.sorting :=
      each_whole _ _ _ fun t => Shape.cut_whole _ _ _ t (by simp [SortTerm.only, named, Field.of])
    exact ⟨_, q, _, _, .intro tables joins columns computed filters groupFilters sorting, excerpt_whole _, rfl,
      by simp [Query.only, named]⟩
  · exact spells_print _ (query_returns q).printable

/-- Whatever text a changed snapshot has, it is read as what is left of its query. The text that is printed of it is
one of these. -/
theorem partial_snapshot_restored (q : Query)
    (steady : ∀ f ∈ q.filters, ∀ x, f.operand = .float x → approximate x.numeral = some x) (v : Value) (left : Query)
    (cut : q.Cut v left) :
    (∀ text, Spells text v → ofSnapshot text = .ok left) ∧ (v.Printable → ofSnapshot v.print = .ok left) := by
  have read := cut_read q steady v left cut
  exact ⟨fun text spells => parse_spelled codec text v left spells read,
    fun printable => parse_spelled codec v.print v left (spells_print v printable) read⟩

-- A table without its alias, a condition with nothing but its value, and a group filter without its aggregate,
-- its operator and its connective, with a member that is not known.
theorem partial_snapshot_restored_example :
    let half : Binary64 := ⟨false, 2 ^ 52, 1021, by decide, by decide, .inr (by decide)⟩
    let q : Query :=
      { empty with
        sources := [⟨"t_users", "users", some "u"⟩]
        filters := [⟨"u.rate", .compare .ge, .float half, .or⟩]
        groupFilters := [⟨.sum, "u.rate", .lt, "10", .or⟩]
        limit := some 5 }
    let left : Query :=
      { empty with
        sources := [⟨"t_users", "users", none⟩]
        filters := [⟨"", .compare .eq, .float half, .and⟩]
        groupFilters := [⟨.count, "u.rate", .gt, "10", .and⟩] }
    let text := "\x7b\"version\":2,\"having\":[\x7b\"note\":[null],\"value\":\"10\",\"column\":\"u.rate\"\x7d]," ++
      "\"conditions\":[\x7b\"value\":0.5\x7d],\"tables\":[\x7b\"name\":\"users\",\"id\":\"t_users\"\x7d]\x7d"
    ∃ v, q.Cut v left ∧ v.Printable ∧ v.print = text ∧ ofSnapshot text = .ok left := by
  intro half q left text
  have steady : ∀ f ∈ q.filters, ∀ x, f.operand = .float x → approximate x.numeral = some x := by
    intro f member x float
    obtain rfl := List.mem_singleton.mp member
    cases float
    decide +kernel
  let name : String × Value := ("name", .string "users")
  let id : String × Value := ("id", .string "t_users")
  let value : String × Value := ("value", .number half.numeral)
  let column : String × Value := ("column", .string "u.rate")
  let bound : String × Value := ("value", .string "10")
  let note : String × Value := ("note", .list [.null])
  have source : Source.Cut ⟨"t_users", "users", some "u"⟩ (.record [name, id]) ⟨"t_users", "users", none⟩ :=
    ⟨_, [id, name], _, rfl, ⟨.cons_cons _ (.cons_cons _ (.cons _ .slnil)), [], List.reverse_perm [id, name], nofun⟩,
      rfl, rfl⟩
  have filter : Filter.Cut ⟨"u.rate", .compare .ge, .float half, .or⟩ (.record [value])
      ⟨"", .compare .eq, .float half, .and⟩ :=
    ⟨_, [value], _, rfl, ⟨.cons _ (.cons _ (.cons_cons _ (.cons _ .slnil))), [], .refl _, nofun⟩, rfl, rfl⟩
  have groupFilter : GroupFilter.Cut ⟨.sum, "u.rate", .lt, "10", .or⟩ (.record [note, bound, column])
      ⟨.count, "u.rate", .gt, "10", .and⟩ :=
    ⟨_, [column, bound], _, rfl, ⟨.cons _ (.cons_cons _ (.cons _ (.cons_cons _ (.cons _ .slnil)))), [note],
      List.reverse_perm [column, bound, note], List.forall_mem_singleton.mpr ⟨rfl, rfl⟩⟩, rfl, rfl⟩
  have inside : q.Inside _ { left with limit := some 5 } :=
    .intro (.cons source .nil) .nil .nil .nil (.cons filter .nil) (.cons groupFilter .nil) .nil
  let tables : String × Value := ("tables", .list [.record [name, id]])
  let conditions : String × Value := ("conditions", .list [.record [value]])
  let having : String × Value := ("having", .list [.record [note, bound, column]])
  let version : String × Value := ("version", .number (.ofInt 2))
  have cut : q.Cut (.record [version, having, conditions, tables]) left := by
    refine ⟨_, _, [tables, conditions, having], _, inside, ⟨?_, [version], ?_, ?_⟩, rfl, by decide⟩
    · exact .cons_cons _ (.cons _ (.cons _ (.cons _ (.cons_cons _ (.cons _ (.cons_cons _ (List.nil_sublist _)))))))
    · exact List.reverse_perm [tables, conditions, having, version]
    · exact List.forall_mem_singleton.mpr ⟨rfl, rfl⟩
  have printable : (Value.record [version, having, conditions, tables]).Printable := by
    have numbers : (Numeral.ofInt 2).Proper ∧ half.numeral.Proper := ⟨proper_of_int 2, numeral_proper half⟩
    simp [Value.record, Value.list, Value.string, Value.Printable, PrintableMembers, PrintableItems, version, having,
      conditions, tables, note, bound, column, value, name, id, numbers]
  have printed : (Value.record [version, having, conditions, tables]).print = text := by decide +kernel
  have restored := (partial_snapshot_restored q steady _ left cut).2 printable
  exact ⟨_, cut, printable, printed, printed ▸ restored⟩

end Query
end QueryDraft
