import QueryDraft.Proofs.EmptyOperands
import QueryDraft.Proofs.Masking
import QueryDraft.Query.Candidate

/-!
The sort keys that the picker offers. A key is picked by its text, in which quote marks tell an output alias from a
column, so a column whose text stands between quote marks of its own is taken for an alias. The aliases offered are
those that the statement declares.
-/

set_option autoImplicit false

namespace QueryDraft

open Text (nameLiteral)

/-! ## Picking by text -/

namespace SortKey

def pickerText : SortKey → String
  | .column name => name
  | .output name => "\"" ++ name ++ "\""

theorem inside_quotes_iff (text inner : List Char) : insideQuotes text = some inner ↔ text = '"' :: inner ++ ['"'] := by
  unfold insideQuotes
  split
  · rename_i rest
    rw [List.cons_append, List.cons_inj_right]
    constructor
    · intro found
      rw [Option.ite_none_right_eq_some, Option.some.injEq] at found
      obtain ⟨last, rfl⟩ := found
      exact (List.dropLast_append_getLast? _ last).symm
    · rintro rfl
      simp
  · rename_i other
    simp only [reduceCtorEq, false_iff]
    rintro rfl
    exact other _ rfl

theorem of_picker_wrapped (inner : String) : ofPicker ("\"" ++ inner ++ "\"") = .output inner := by
  have found := (inside_quotes_iff ("\"" ++ inner ++ "\"").toList inner.toList).mpr (by simp)
  rw [ofPicker, found]
  simp

theorem of_picker_bare (name : String) (bare : ∀ inner, name ≠ "\"" ++ inner ++ "\"") : ofPicker name = .column name := by
  unfold ofPicker
  split
  · rename_i inner found
    rw [inside_quotes_iff] at found
    refine absurd ?_ (bare (String.ofList inner))
    rw [← String.toList_inj, found]
    simp
  · rfl

end SortKey

namespace Candidate

-- The table's name brings the first quote mark and the column's name the last one.
def Framed (c : Candidate) : Prop := c.visibleName.toList.head? = some '"' ∧ c.column.name.toList.getLast? = some '"'

theorem framed_iff (c : Candidate) : c.Framed ↔ ∃ inner, c.qualifiedName = "\"" ++ inner ++ "\"" := by
  have chars : c.qualifiedName.toList = c.visibleName.toList ++ '.' :: c.column.name.toList := by
    simp [qualifiedName]
  constructor
  · rintro ⟨first, last⟩
    obtain ⟨table, visible⟩ := List.head?_eq_some_iff.mp first
    obtain ⟨column, name⟩ := List.getLast?_eq_some_iff.mp last
    refine ⟨String.ofList (table ++ '.' :: column), ?_⟩
    rw [← String.toList_inj, chars, visible, name]
    simp
  · rintro ⟨inner, framed⟩
    rw [framed, String.toList_append, String.toList_append] at chars
    have first : (c.visibleName.toList ++ '.' :: c.column.name.toList).head? = some '"' := by
      rw [← chars]
      rfl
    have last : (c.visibleName.toList ++ '.' :: c.column.name.toList).getLast? = some '"' := by
      rw [← chars]
      exact List.getLast?_concat
    constructor
    · cases visible : c.visibleName.toList with
      | nil => simp [visible] at first
      | cons mark rest => simpa [visible] using first
    · rw [List.getLast?_append_cons, List.getLast?_cons, Option.some.injEq] at last
      cases name : c.column.name.toList.getLast? with
      | none => simp [name] at last
      | some mark => simpa [name] using last

end Candidate

theorem SortKey.of_picker_candidate (c : Candidate) :
    ofPicker (column c.qualifiedName).pickerText = .column c.qualifiedName ↔ ¬ c.Framed := by
  rw [c.framed_iff, not_exists]
  constructor
  · rintro same inner framed
    rw [pickerText, framed, of_picker_wrapped] at same
    cases same
  · exact of_picker_bare c.qualifiedName

namespace Query

variable (catalog : Catalog) (q : Query)

theorem mem_sort_candidates (k : SortKey) (offered : k ∈ q.sortCandidates catalog) :
    (∃ c ∈ q.candidates catalog, k = .column c.qualifiedName) ∨ ∃ name, k = .output name := by
  simp only [sortCandidates, List.mem_append, List.mem_map] at offered
  obtain (⟨c, member, rfl⟩ | ⟨name, -, rfl⟩) | ⟨name, -, rfl⟩ := offered
  · exact .inl ⟨c, member, rfl⟩
  · exact .inr ⟨name, rfl⟩
  · exact .inr ⟨name, rfl⟩

/-- Every sort key on offer is picked by its text exactly if no column among them stands between quote marks, that
is, belongs to a table whose visible name begins with one and has a name that ends with one. An alias always is
picked by its text, and the text of such a column picks an alias. -/
theorem picked_again :
    ((∀ k ∈ q.sortCandidates catalog, .ofPicker k.pickerText = k) ↔ ∀ c ∈ q.candidates catalog, ¬ c.Framed) ∧
      (∀ name, SortKey.ofPicker (SortKey.output name).pickerText = .output name) ∧
      ∀ c ∈ q.candidates catalog, c.Framed → ∃ inner, c.qualifiedName = "\"" ++ inner ++ "\"" ∧
        .ofPicker (SortKey.column c.qualifiedName).pickerText = SortKey.output inner := by
  refine ⟨⟨fun kept c member => ?_, fun bare k offered => ?_⟩, SortKey.of_picker_wrapped, fun c _ framed => ?_⟩
  · have offered : .column c.qualifiedName ∈ q.sortCandidates catalog :=
      List.mem_append_left _ (List.mem_append_left _ (List.mem_map_of_mem member))
    exact (SortKey.of_picker_candidate c).mp (kept _ offered)
  · obtain ⟨c, member, rfl⟩ | ⟨name, rfl⟩ := q.mem_sort_candidates catalog k offered
    · exact (SortKey.of_picker_candidate c).mpr (bare c member)
    · exact SortKey.of_picker_wrapped name
  · obtain ⟨inner, whole⟩ := c.framed_iff.mp framed
    refine ⟨inner, whole, ?_⟩
    rw [SortKey.pickerText, whole]
    exact SortKey.of_picker_wrapped inner

-- A catalog that writes its names in quote marks: the one column on offer, when picked, sorts on an alias.
theorem picked_otherwise :
    let catalog : Catalog := Roster.empty.put ⟨"t_orders", "\"orders\"", [⟨"\"total\"", "decimal"⟩]⟩
    let edits : List Edit :=
      [.editTable 0 (.pick "t_orders"), .toggleColumn (.plain "\"orders\".\"total\"" "decimal"), .addSort]
    let q := fresh.applyAll catalog edits
    let k : SortKey := .column "\"orders\".\"total\""
    let chosen (k : SortKey) := (q.apply catalog (.editSort 0 (.reference (some k)))).statement .standard
    q.sortCandidates catalog = [k] ∧ .ofPicker k.pickerText ≠ k ∧
      chosen k = "SELECT \"orders\".\"total\"\nFROM \"orders\"\nORDER BY \"orders\".\"total\" ASC;" ∧
      chosen (.ofPicker k.pickerText) =
        "SELECT \"orders\".\"total\"\nFROM \"orders\"\nORDER BY \"orders\"\".\"\"total\" ASC;" := by
  decide +kernel

end Query

/-! ## Aliases on offer and declared -/

-- An output of the projection: an expression, and what stands behind AS if it is declared under a name.
structure Declaration where
  expression : String
  token? : Option String

def Declaration.text (d : Declaration) : String :=
  match d.token? with
  | some token => d.expression ++ " AS " ++ token
  | none => d.expression

namespace Query

variable (catalog : Catalog) (q : Query)

-- The aliases that the projection declares, in its order.
def outputNames : List String :=
  q.selected.filterMap SelectedColumn.asName ++ q.computed.map ComputedColumn.asName

def declarations : List Declaration :=
  q.selected.map (fun c => ⟨c.expression, c.asName.map nameLiteral⟩) ++
    q.computed.map fun c => ⟨c.expression, some (nameLiteral c.asName)⟩

theorem items_declared :
    q.selected.map SelectedColumn.item ++ q.computed.map ComputedColumn.item = q.declarations.map Declaration.text := by
  rw [declarations, List.map_append, List.map_map, List.map_map]
  congr 1
  refine List.map_congr_left fun c _ => ?_
  rw [SelectedColumn.item, Function.comp_apply, Declaration.text]
  cases c.asName <;> rfl

theorem tokens_declared : q.declarations.filterMap Declaration.token? = q.outputNames.map nameLiteral := by
  have columns : (q.selected.map fun c => Declaration.mk c.expression (c.asName.map nameLiteral)).filterMap
      Declaration.token? = (q.selected.filterMap SelectedColumn.asName).map nameLiteral := by
    rw [List.filterMap_map, List.map_filterMap]
    rfl
  have computed : (q.computed.map fun c => Declaration.mk c.expression (some (nameLiteral c.asName))).filterMap
      Declaration.token? = (q.computed.map ComputedColumn.asName).map nameLiteral := by
    rw [List.filterMap_map, List.map_map, ← List.filterMap_eq_map]
    rfl
  rw [declarations, outputNames, List.filterMap_append, List.map_append, columns, computed]

-- Only an empty alias of a computed column would be left out.
theorem sort_candidates_of_valid (valid : q.issues = []) :
    q.sortCandidates catalog =
      (q.candidates catalog).map (fun c => .column c.qualifiedName) ++ q.outputNames.map .output := by
  have given : ∀ name ∈ q.computed.map ComputedColumn.asName, name ≠ "" :=
    List.forall_mem_map.mpr fun c member => (computed_given_of_valid q valid c member).2
  have kept :
      ((q.computed.map ComputedColumn.asName).filter fun name => name ≠ "") = q.computed.map ComputedColumn.asName :=
    List.filter_eq_self.mpr fun name member => decide_eq_true (given name member)
  rw [sortCandidates, kept, outputNames, List.map_append, List.append_assoc]

theorem contents_select (unquoted : q.Unquoted) : Text.contents q.selectClause = q.outputNames := by
  rw [Text.contents, Text.lexemes_of_reads _ _ (q.reads_select unquoted)]
  exact q.tokens_select

theorem order_by_output (name : String) (direction : Direction) :
    orderByClause? [⟨some (.output name), direction⟩] =
      if name = "" then none else some ("ORDER BY " ++ nameLiteral name ++ " " ++ direction.text) := by
  split
  · rename_i empty
    rw [empty]
    rfl
  · rename_i present
    have item :
        (SortTerm.mk (some (.output name)) direction).item? = some (nameLiteral name ++ " " ++ direction.text) := by
      rw [SortTerm.item?, key_of_output name direction present]
      rfl
    simp [orderByClause?, item, String.append_assoc]

/-- Of a query without issues, the sort keys on offer are columns and behind them aliases. Written as an ORDER BY line
has them, which leaves out an empty one only, the aliases are what stands behind AS in the projection, in its order;
where the user's own texts have no quote marks, nothing else there is quoted. -/
theorem aliases_offered (settings : Settings) (valid : q.issues = []) :
    ∃ columns names : List String, ∃ rest,
      q.sortCandidates catalog = columns.map .column ++ names.map .output ∧
      q.statement settings = q.selectClause ++ "\n" ++ rest ∧
      q.selectClause = (if q.distinct then "SELECT DISTINCT " else "SELECT ") ++
        ", ".intercalate (q.declarations.map Declaration.text) ∧
      (names.map SortKey.output).map SortKey.item = q.declarations.filterMap Declaration.token? ∧
      (∀ name direction, orderByClause? [⟨some (.output name), direction⟩] =
        if name = "" then none else some ("ORDER BY " ++ (SortKey.output name).item ++ " " ++ direction.text)) ∧
      (q.Unquoted → Text.contents q.selectClause = names) := by
  obtain ⟨rest, text⟩ := statement_opens settings q valid
  refine ⟨(q.candidates catalog).map Candidate.qualifiedName, q.outputNames, rest, ?_, text, ?_, ?_, order_by_output,
    q.contents_select⟩
  · rw [q.sort_candidates_of_valid catalog valid, List.map_map]
    rfl
  · rw [q.select_clause_of_valid valid, q.items_declared]
  · rw [q.tokens_declared, List.map_map]
    rfl

theorem aliases_offered_example :
    let catalog : Catalog := Roster.empty.put ⟨"t_users", "users", [⟨"id", "integer"⟩]⟩
    let q : Query :=
      { fresh with
        sources := [⟨"t_users", "users", some "u"⟩]
        columns :=
          (Roster.empty.put ("u.id", ⟨"u.id", "integer", none, some "the \"id\""⟩)).put ("u.name", .plain "u.name" "text")
        computed := [⟨"1 + 1", "two"⟩] }
    q.issues = [] ∧ ∃ columns names : List String, ∃ rest,
      q.sortCandidates catalog = columns.map .column ++ names.map .output ∧
        q.statement .standard = "SELECT u.id AS \"the \"\"id\"\"\", u.name, 1 + 1 AS \"two\"" ++ "\n" ++ rest ∧
        (names.map SortKey.output).map SortKey.item = ["\"the \"\"id\"\"\"", "\"two\""] := by
  intro catalog q
  have valid : q.issues = [] := by decide
  obtain ⟨columns, names, rest, offered, text, -, tokens, -⟩ := q.aliases_offered catalog .standard valid
  refine ⟨valid, columns, names, rest, offered, ?_, tokens.trans (by decide)⟩
  exact text.trans (congrArg (fun clause => clause ++ "\n" ++ rest) (by decide))

end Query
end QueryDraft
