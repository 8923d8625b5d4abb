import QueryDraft.Proofs.CodecLaws
import QueryDraft.Proofs.FloatText
import QueryDraft.Query.Basic

/-!
Snapshots restore queries. All parts of a query come back as they were, but for the numbers of filters:
those are read by their own texts, which the reader of numbers may take for neighbours.
-/

set_option autoImplicit false

namespace QueryDraft

open Json
open Number

/-! ## Keywords -/

theorem aggregate_lossless : Aggregate.codec.Lossless :=
  choice_lossless _ _ fun a => by cases a <;> rfl

theorem comparison_lossless : Comparison.codec.Lossless :=
  choice_lossless _ _ fun c => by cases c <;> rfl

theorem connective_lossless : Connective.codec.Lossless :=
  choice_lossless _ _ fun c => by cases c <;> rfl

theorem direction_lossless : Direction.codec.Lossless :=
  choice_lossless _ _ fun d => by cases d <;> rfl

theorem join_kind_lossless : JoinKind.codec.Lossless :=
  choice_lossless _ _ fun k => by cases k <;> rfl

theorem comparison_parse_text (c : Comparison) : Comparison.parse c.text = .ok c := by
  cases c <;> rfl

-- A comparison is read as such; the texts of the other operators are no comparisons.
theorem filter_op_parse_text (op : FilterOp) : FilterOp.parse op.text = .ok op := by
  cases op with
  | compare c => simp [FilterOp.parse, FilterOp.text, comparison_parse_text]
  | like => rfl
  | notLike => rfl
  | isIn => rfl
  | notIn => rfl
  | isNull => rfl
  | isNotNull => rfl

theorem filter_op_lossless : FilterOp.codec.Lossless := by
  intro op
  refine ⟨rfl, ?_⟩
  simp [FilterOp.codec, Value.string, filter_op_parse_text, outcome]

/-! ## Operands -/

-- What is read back of an operand.
def Operand.reread : Operand → Option Operand
  | .float x => (approximate x.numeral).map .float
  | operand => some operand

theorem amount_of_float (x : Binary64) : amount x.numeral = (approximate x.numeral).map .float := by
  rcases numeral_floating x with fraction | exponent
  · simp [amount, fraction]
  · simp [amount, exponent]

theorem amount_of_negative (i : Int) (negative : i < 0) (low : -(2 ^ 63) ≤ i) :
    amount (.ofInt i) = some (.negative (Int64.ofInt i)) := by
  have size : valueOf (digitsOf i.natAbs) = i.natAbs := valueOf_digitsOf _
  have positive : 0 < i.natAbs := by omega
  have small : i.natAbs ≤ 2 ^ 63 := by omega
  have back : -(i.natAbs : Int) = i := by omega
  simp only [amount, Numeral.ofInt, size, back]
  simp [negative, positive, small]

theorem operand_of_int (i : Int64) : (amount (.ofInt i.toInt)).bind Operand.ofAmount = some (.int i) := by
  have low := i.le_toInt
  have high := i.toInt_lt
  by_cases negative : i.toInt < 0
  · rw [amount_of_negative i.toInt negative low, Int64.ofInt_toInt]
    rfl
  · have natural : (i.toInt.toNat : Int) = i.toInt := Int.toNat_of_nonneg (by omega)
    have small : i.toInt.toNat < 2 ^ 63 := by omega
    have read := amount_of_natural i.toInt.toNat (by omega)
    have word : (UInt64.ofNat i.toInt.toNat).toNat = i.toInt.toNat := UInt64.toNat_ofNat_of_lt' (by
      show i.toInt.toNat < 2 ^ 64
      omega)
    rw [natural] at read
    rw [read, Option.bind_some, Operand.ofAmount, word, if_pos small, natural, Int64.ofInt_toInt]

theorem operand_returns (operand : Operand) : Operand.codec.Returns operand operand.reread := by
  cases operand with
  | int i =>
      refine ⟨proper_of_int i.toInt, ?_⟩
      simp [Operand.codec, operand_of_int, Operand.reread, outcome]
  | float x =>
      refine ⟨numeral_proper x, ?_⟩
      simp only [Operand.codec, amount_of_float, Operand.reread]
      cases approximate x.numeral <;> rfl
  | text s => exact ⟨rfl, rfl⟩

/-! ## Records -/

theorem optional_text_lossless : (Codec.optional .text).Lossless :=
  optional_lossless _ text_lossless fun _ => nofun

theorem optional_natural_lossless : (Codec.optional .natural).Lossless :=
  optional_lossless _ natural_lossless fun _ => nofun

theorem optional_aggregate_lossless : (Codec.optional Aggregate.codec).Lossless :=
  optional_lossless _ aggregate_lossless fun _ => nofun

theorem source_lossless : Source.codec.Lossless := fun _ =>
  Shape.codec_returns _ _ _ _ _
    (.cons (field_lossless _ _ _ _ _ text_lossless)
      (.cons (field_lossless _ _ _ _ _ text_lossless)
        (.cons (field_lossless _ _ _ _ _ optional_text_lossless) .nil)))
    (by decide) rfl

theorem join_lossless : Join.codec.Lossless := fun _ =>
  Shape.codec_returns _ _ _ _ _
    (.cons (field_lossless _ _ _ _ _ join_kind_lossless)
      (.cons (field_lossless _ _ _ _ _ text_lossless)
        (.cons (field_lossless _ _ _ _ _ comparison_lossless)
          (.cons (field_lossless _ _ _ _ _ text_lossless) .nil))))
    (by decide) rfl

theorem selected_column_lossless : SelectedColumn.codec.Lossless := fun _ =>
  Shape.codec_returns _ _ _ _ _
    (.cons (field_lossless _ _ _ _ _ text_lossless)
      (.cons (field_lossless _ _ _ _ _ text_lossless)
        (.cons (field_lossless _ _ _ _ _ optional_aggregate_lossless)
          (.cons (field_lossless _ _ _ _ _ optional_text_lossless) .nil))))
    (by decide) rfl

theorem computed_column_lossless : ComputedColumn.codec.Lossless := fun _ =>
  Shape.codec_returns _ _ _ _ _
    (.cons (field_lossless _ _ _ _ _ text_lossless)
      (.cons (field_lossless _ _ _ _ _ text_lossless) .nil))
    (by decide) rfl

theorem group_filter_lossless : GroupFilter.codec.Lossless := fun _ =>
  Shape.codec_returns _ _ _ _ _
    (.cons (field_lossless _ _ _ _ _ aggregate_lossless)
      (.cons (field_lossless _ _ _ _ _ text_lossless)
        (.cons (field_lossless _ _ _ _ _ comparison_lossless)
          (.cons (field_lossless _ _ _ _ _ text_lossless)
            (.cons (field_lossless _ _ _ _ _ connective_lossless) .nil)))))
    (by decide) rfl

theorem sort_key_lossless : SortKey.codec.Lossless := by
  intro k
  cases k with
  | column name => exact ⟨⟨rfl, rfl, rfl, trivial⟩, rfl⟩
  | output name => exact ⟨⟨rfl, rfl, rfl, trivial⟩, rfl⟩

theorem optional_key_lossless : (Codec.optional SortKey.codec).Lossless :=
  optional_lossless _ sort_key_lossless fun k => by cases k <;> nofun

theorem sort_term_lossless : SortTerm.codec.Lossless := fun _ =>
  Shape.codec_returns _ _ _ _ _
    (.cons (field_lossless _ _ _ _ _ optional_key_lossless)
      (.cons (field_lossless _ _ _ _ _ direction_lossless) .nil))
    (by decide) rfl

def Filter.reread (f : Filter) : Option Filter := f.operand.reread.map fun operand => { f with operand }

theorem filter_returns (f : Filter) : Filter.codec.Returns f f.reread :=
  Shape.codec_returns _ _ _ _ _
    (.cons (field_lossless _ _ _ _ _ text_lossless)
      (.cons (field_lossless _ _ _ _ _ filter_op_lossless)
        (.cons (field_returns _ _ _ _ _ _ (operand_returns f.operand))
          (.cons (field_lossless _ _ _ _ _ connective_lossless) .nil))))
    (by decide) (by
      rw [Filter.reread]
      cases f.operand.reread <;> rfl)

/-! ## Ordered parts -/

namespace Roster

variable {α : Type} {key : α → String}

theorem foldl_put (items : List α) (r : Roster key) (fresh : ((r.items ++ items).map key).Nodup) :
    (items.foldl put r).items = r.items ++ items := by
  induction items generalizing r with
  | nil => simp
  | cons a rest ih =>
      have new : key a ∉ r.items.map key := by
        rw [List.map_append, List.nodup_append] at fresh
        intro old
        exact fresh.2.2 _ old (key a) (by simp) rfl
      have grown := put_fresh r a new
      rw [List.foldl_cons, ih (r.put a) (by rw [grown]; simpa using fresh), grown]
      simp

theorem of_list_items (r : Roster key) : ofList r.items = r := by
  apply ext_items
  rw [ofList, foldl_put _ _ (by simpa [empty] using r.distinct)]
  rfl

end Roster

theorem grouping_lossless : Query.groupingCodec.Lossless := by
  intro names
  obtain ⟨printable, read⟩ := list_lossless _ text_lossless names.items
  refine ⟨printable, ?_⟩
  simp only [Query.groupingCodec, read]
  exact congrArg outcome (congrArg some (Roster.of_list_items names))

theorem read_columns (items : List KeyedColumn) (columns : Roster (Prod.fst : KeyedColumn → String)) :
    Query.readColumns true (items.map fun c => (some c.1, SelectedColumn.codec.write c.2)) columns =
      .ok (items.foldl Roster.put columns) := by
  induction items generalizing columns with
  | nil => rfl
  | cons c rest ih =>
      have read := (selected_column_lossless c.2).reads
      rw [List.map_cons, Query.readColumns, read]
      exact ih (columns.put c)

theorem columns_lossless : Query.columnsCodec.Lossless := by
  intro columns
  constructor
  · apply printable_record
    intro m member
    obtain ⟨c, -, rfl⟩ := List.mem_map.mp member
    exact (selected_column_lossless c.2).printable
  · have read := read_columns columns.items .empty
    simp only [Query.columnsCodec, Value.record, List.map_map]
    exact read.trans (congrArg Except.ok (Roster.of_list_items columns))

/-! ## Queries -/

def Query.reread (q : Query) : Option Query :=
  (q.filters.mapM Filter.reread).map fun filters => { q with filters }

theorem query_returns (q : Query) : Query.codec.Returns q q.reread :=
  Shape.codec_returns _ _ _ _ _
    (.cons (field_lossless _ _ _ _ _ (list_lossless _ source_lossless))
      (.cons (field_lossless _ _ _ _ _ (list_lossless _ join_lossless))
        (.cons (field_lossless _ _ _ _ _ columns_lossless)
          (.cons (field_lossless _ _ _ _ _ (list_lossless _ computed_column_lossless))
            (.cons (field_returns _ _ _ _ _ _ (list_returns _ _ q.filters fun f _ => filter_returns f))
              (.cons (field_lossless _ _ _ _ _ grouping_lossless)
                (.cons (field_lossless _ _ _ _ _ (list_lossless _ group_filter_lossless))
                  (.cons (field_lossless _ _ _ _ _ (list_lossless _ sort_term_lossless))
                    (.cons (field_lossless _ _ _ _ _ optional_natural_lossless)
                      (.cons (field_lossless _ _ _ _ _ optional_natural_lossless)
                        (.cons (field_lossless _ _ _ _ _ flag_lossless) .nil)))))))))))
    (by decide) (by
      rw [Query.reread]
      cases q.filters.mapM Filter.reread <;> rfl)

theorem snapshot_returns (q : Query) : Query.ofSnapshot q.snapshot = outcome q.reread :=
  parse_print Query.codec q q.reread (query_returns q)

namespace Query

theorem filters_reread (filters : List Filter)
    (kept : ∀ f ∈ filters, ∀ x, f.operand = .float x → approximate x.numeral = some x) :
    filters.mapM Filter.reread = some filters := by
  induction filters with
  | nil => rfl
  | cons f rest ih =>
      have first : f.reread = some f := by
        obtain ⟨subject, operator, operand, connective⟩ := f
        cases operand with
        | int i => rfl
        | text s => rfl
        | float x =>
            have read := kept _ List.mem_cons_self x rfl
            simp [Filter.reread, Operand.reread, read]
      rw [List.mapM_cons, first, ih fun g member => kept g (List.mem_cons_of_mem f member)]
      rfl

/-- A snapshot is read back as the query it was taken of, as long as its numbers are read back as themselves. -/
theorem snapshot_restored (q : Query)
    (kept : ∀ f ∈ q.filters, ∀ x, f.operand = .float x → approximate x.numeral = some x) :
    ofSnapshot q.snapshot = .ok q := by
  rw [snapshot_returns, reread, filters_reread q.filters kept]
  rfl

theorem snapshot_restored_example :
    let five : Binary64 := ⟨false, 5 * 2 ^ 50, 1024, by decide, by decide, .inr (by decide)⟩
    let q : Query :=
      { fresh with
        columns := ⟨[("z", .plain "o.a" "int"), ("y", .plain "o.b" "")], by decide⟩
        filters := [⟨"o.total", .compare .ge, .float five, .and⟩, ⟨"o.code", .compare .eq, .text "5", .or⟩]
        grouping := ⟨["o.b", "o.a"], by decide⟩ }
    approximate five.numeral = some five ∧ ofSnapshot q.snapshot = .ok q := by
  intro five q
  have same : approximate five.numeral = some five := by decide +kernel
  refine ⟨same, snapshot_restored q ?_⟩
  intro f member x float
  simp only [q, List.mem_cons, List.not_mem_nil, or_false] at member
  rcases member with rfl | rfl
  · cases float
    exact same
  · cases float

end Query
end QueryDraft
