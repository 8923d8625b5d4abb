import QueryDraft.Proofs.Characters
import QueryDraft.Proofs.Compilation

/-!
Where quoted text stands in a statement. A statement is given a second time as a run of lexemes, and
read back as exactly that run, so what is quoted never reaches the text around it.
-/

set_option autoImplicit false

namespace QueryDraft

open Text (Apart Lexeme Reads Unmarked apart_of_unmarked lexemes quote reads_append reads_intercalate reads_quote
  reads_unmarked reads_unmarked_append)

def bare (s : String) : List Lexeme := s.toList.map .plain

/-! ## The lexemes of a statement -/

def SelectedColumn.pieces (c : SelectedColumn) : List Lexeme :=
  match c.asName with
  | some asName => bare (c.expression ++ " AS ") ++ [.quoted '"' asName.toList]
  | none => bare c.expression

def ComputedColumn.pieces (c : ComputedColumn) : List Lexeme :=
  bare (c.expression ++ " AS ") ++ [.quoted '"' c.asName.toList]

def Operand.pieces : Operand → List Lexeme
  | .text s => [.quoted '\'' s.toList]
  | number => bare number.plainText

def Operand.parts (operand : Operand) : List (List Char) :=
  (operand.plainText.toList.splitOn ',').map Text.trim

def Operand.listPieces (operand : Operand) : List Lexeme :=
  bare "(" ++ (bare ", ").intercalate (operand.parts.map fun part => [.quoted '\'' part]) ++ bare ")"

def Filter.pieces (f : Filter) : List Lexeme :=
  let head := f.subject ++ " " ++ f.operator.text
  if f.operator.isNullary then bare head
  else if f.operator.isList then bare (head ++ " ") ++ f.operand.listPieces
  else bare (head ++ " ") ++ f.operand.pieces

def SortKey.pieces : SortKey → List Lexeme
  | .column name => bare name
  | .output name => [.quoted '"' name.toList]

def SortTerm.pieces? (t : SortTerm) : Option (List Lexeme) :=
  t.key?.map fun k => k.pieces ++ bare (" " ++ t.direction.text)

def connectPieces : List (Connective × List Lexeme) → List Lexeme
  | [] => []
  | (_, first) :: rest => first ++ rest.flatMap fun (c, pieces) => bare (" " ++ c.text ++ " ") ++ pieces

namespace Query

def selectPieces (q : Query) : List Lexeme :=
  let items := q.selected.map SelectedColumn.pieces ++ q.computed.map ComputedColumn.pieces
  let projection := if items.isEmpty then bare "*" else (bare ", ").intercalate items
  bare (if q.distinct then "SELECT DISTINCT " else "SELECT ") ++ projection

def wherePieces (filters : List Filter) : List (List Lexeme) :=
  let shown := filters.filter Filter.isRenderable
  if shown.isEmpty then []
  else [bare "WHERE " ++ connectPieces (shown.map fun f => (f.connective, f.pieces))]

def orderByPieces (terms : List SortTerm) : List (List Lexeme) :=
  let items := terms.filterMap SortTerm.pieces?
  if items.isEmpty then [] else [bare "ORDER BY " ++ (bare ", ").intercalate items]

def linePieces (q : Query) : List (List Lexeme) :=
  q.selectPieces :: ((q.sources.take 1).map fun s => "FROM " ++ s.text s.name).map bare ++
    (List.zipWith (fun j s => j.item (s.text s.name)) q.joins (q.sources.drop 1)).map bare ++
    (wherePieces q.filters ++ q.groupByClause?.toList.map bare ++
      (clause? "HAVING" (havingBody q.groupFilters)).toList.map bare ++ orderByPieces q.sorting ++
      q.limitClause?.toList.map bare)

def pieces (settings : Settings) (q : Query) : List Lexeme :=
  (bare "\n").intercalate q.linePieces ++ bare (q.trailer settings ++ ";")

-- No quote mark stands in a text that the statement takes over as it is.
structure Unquoted (q : Query) : Prop where
  sources : ∀ s ∈ q.sources, Unmarked s.name.toList ∧ ∀ asName, s.asName = some asName → Unmarked asName.toList
  joins : ∀ j ∈ q.joins, Unmarked j.left.toList ∧ Unmarked j.right.toList
  columns : ∀ c ∈ q.selected, Unmarked c.name.toList
  computed : ∀ c ∈ q.computed, Unmarked c.expression.toList
  filters : ∀ f ∈ q.filters, f.isRenderable = true → Unmarked f.subject.toList
  grouping : ∀ name ∈ q.grouping.items, Unmarked name.toList
  groupFilters : ∀ f ∈ q.groupFilters, f.isRenderable = true → Unmarked f.column.toList ∧ Unmarked f.bound.toList
  sorting : ∀ t ∈ q.sorting, ∀ name, t.reference = some (.column name) → Unmarked name.toList

end Query

/-! ## Every part reads as its lexemes -/

theorem reads_bare (s : String) (unmarked : Unmarked s.toList) : Reads s.toList (bare s) :=
  reads_unmarked _ unmarked

theorem reads_bare_append (a b : String) (pieces : List Lexeme) (unmarked : Unmarked a.toList)
    (reads : Reads b.toList pieces) : Reads (a ++ b).toList (bare a ++ pieces) := by
  rw [String.toList_append]
  exact reads_unmarked_append _ _ _ unmarked reads

theorem reads_append_bare (a b : String) (pieces : List Lexeme) (unmarked : Unmarked b.toList)
    (reads : Reads a.toList pieces) : Reads (a ++ b).toList (pieces ++ bare b) := by
  rw [String.toList_append]
  exact reads_append _ _ _ _ (apart_of_unmarked _ unmarked) reads (reads_bare b unmarked)

theorem reads_name (name : String) : Reads (Text.nameLiteral name).toList [.quoted '"' name.toList] := by
  rw [Text.nameLiteral, String.toList_ofList]
  exact reads_quote _ _ (by decide)

theorem reads_string (text : String) : Reads (Text.stringLiteral text).toList [.quoted '\'' text.toList] := by
  rw [Text.stringLiteral, String.toList_ofList]
  exact reads_quote _ _ (by decide)

abbrev ReadEach (texts : List String) (pieces : List (List Lexeme)) : Prop :=
  List.Forall₂ (fun text piece => Reads text.toList piece) texts pieces

theorem read_each_append {a b : List String} {first second : List (List Lexeme)} (front : ReadEach a first)
    (back : ReadEach b second) : ReadEach (a ++ b) (first ++ second) :=
  List.rel_append front back

theorem reads_each {α : Type} (items : List α) (text : α → String) (pieces : α → List Lexeme)
    (each : ∀ a ∈ items, Reads (text a).toList (pieces a)) : ReadEach (items.map text) (items.map pieces) := by
  rw [ReadEach, List.forall₂_map_left_iff, List.forall₂_map_right_iff, List.forall₂_same]
  exact each

theorem reads_bare_each (texts : List String) (each : ∀ text ∈ texts, Unmarked text.toList) :
    ReadEach texts (texts.map bare) := by
  simpa only [List.map_id] using reads_each texts id bare fun text member => reads_bare text (each text member)

theorem reads_items (separator : String) (texts : List String) (pieces : List (List Lexeme))
    (unmarked : Unmarked separator.toList) (present : separator.toList ≠ []) (each : ReadEach texts pieces) :
    Reads (separator.intercalate texts).toList ((bare separator).intercalate pieces) := by
  rw [String.toList_intercalate]
  exact reads_intercalate _ _ _ unmarked present (List.forall₂_map_left_iff.mpr each)

theorem reads_commas (texts : List String) (pieces : List (List Lexeme)) (each : ReadEach texts pieces) :
    Reads (", ".intercalate texts).toList ((bare ", ").intercalate pieces) :=
  reads_items ", " texts pieces (by decide) (by decide) each

theorem reads_selected (c : SelectedColumn) (unmarked : Unmarked c.name.toList) :
    Reads c.item.toList c.pieces := by
  have expression : Unmarked c.expression.toList := each_expression unmarked_of_ordinary c unmarked
  unfold SelectedColumn.item SelectedColumn.pieces
  cases c.asName with
  | none => exact reads_bare _ expression
  | some asName => exact reads_bare_append _ _ _ (unmarked_strings _ " AS " expression (by decide)) (reads_name asName)

theorem reads_computed (c : ComputedColumn) (unmarked : Unmarked c.expression.toList) :
    Reads c.item.toList c.pieces :=
  reads_bare_append _ _ _ (unmarked_strings _ " AS " unmarked (by decide)) (reads_name c.asName)

theorem reads_literal (operand : Operand) : Reads operand.literal.toList operand.pieces := by
  have number := fun bare => each_of_ordinary unmarked_of_ordinary _ (number_ordinary operand bare)
  cases operand with
  | int i => exact reads_bare _ (number (by simp))
  | float x => exact reads_bare _ (number (by simp))
  | text s => exact reads_string s

theorem reads_list (operand : Operand) : Reads operand.listLiteral.toList operand.listPieces := by
  apply reads_append_bare _ _ _ (by decide)
  apply reads_bare_append _ _ _ (by decide)
  apply reads_commas
  rw [Operand.parts, List.map_map]
  exact reads_each _ _ _ fun part _ => by simpa using reads_string (String.ofList (Text.trim part))

theorem reads_filter (f : Filter) (unmarked : Unmarked f.subject.toList) : Reads f.item.toList f.pieces := by
  have head : Unmarked (f.subject ++ " " ++ f.operator.text).toList :=
    each_filter_head unmarked_of_ordinary f unmarked
  have front := unmarked_strings _ " " head (by decide)
  unfold Filter.item Filter.pieces
  dsimp only
  split
  · exact reads_bare _ head
  · split
    · exact reads_bare_append _ _ _ front (reads_list _)
    · exact reads_bare_append _ _ _ front (reads_literal _)

theorem reads_key (k : SortKey) (unmarked : ∀ name, k = .column name → Unmarked name.toList) :
    Reads k.item.toList k.pieces := by
  cases k with
  | column name => exact reads_bare _ (unmarked name rfl)
  | output name => exact reads_name name

-- The connective of the first entry is not rendered, so only the entries after it put words between.
theorem reads_connect {α : Type} (entries : List α) (word : α → Connective) (text : α → String)
    (pieces : α → List Lexeme) (each : ∀ a ∈ entries, Reads (text a).toList (pieces a)) :
    Reads (connect (entries.map fun a => (word a, text a))).toList
      (connectPieces (entries.map fun a => (word a, pieces a))) := by
  cases entries with
  | nil => exact reads_bare "" (by decide)
  | cons first rest =>
      simp only [List.map_cons, connect, connectPieces, List.map_map, List.flatMap_map, String.toList_append]
      have following : ∀ later : List α, (∀ a ∈ later, Reads (text a).toList (pieces a)) →
          Apart (String.join (later.map fun a => " " ++ (word a).text ++ " " ++ text a)).toList ∧
          Reads (String.join (later.map fun a => " " ++ (word a).text ++ " " ++ text a)).toList
            (later.flatMap fun a => bare (" " ++ (word a).text ++ " ") ++ pieces a) := by
        intro later reads
        induction later with
        | nil => exact ⟨by simp [Apart], reads_bare "" (by decide)⟩
        | cons a later ih =>
            have front := each_of_ordinary unmarked_of_ordinary _ (connective_ordinary (word a))
            obtain ⟨apart, tail⟩ := ih fun b member => reads b (by simp [member])
            have head := reads_bare_append _ _ _ front (reads a (by simp))
            simp only [String.toList_join, List.map_cons, List.flatMap_cons] at apart tail ⊢
            refine ⟨?_, reads_append _ _ _ _ apart head tail⟩
            intro c start
            simp only [String.toList_append, List.append_assoc] at start
            have blank : c = ' ' := by simpa using start.symm
            subst blank
            rfl
      obtain ⟨apart, tail⟩ := following rest fun a member => each a (by simp [member])
      exact reads_append _ _ _ _ apart (each first (by simp)) tail

/-! ## Every clause reads as its lexemes -/

theorem connect_eq_empty (entries : List (Connective × String)) (each : ∀ entry ∈ entries, entry.2 ≠ "") :
    connect entries = "" ↔ entries = [] := by
  cases entries with
  | nil => simp [connect]
  | cons first rest =>
      have head := each first (by simp)
      simp [connect, String.append_eq_empty_iff, head]

theorem connect_shown_eq_empty {α : Type} (entries : List α) (shown : α → Bool) (word : α → Connective)
    (item : α → String) (written : ∀ a, item a ≠ "") :
    connect ((entries.filter shown).map fun a => (word a, item a)) = "" ↔ entries.filter shown = [] := by
  rw [connect_eq_empty, List.map_eq_nil_iff]
  intro entry member
  obtain ⟨a, -, rfl⟩ := List.mem_map.mp member
  exact written a

theorem filter_item_ne_empty (f : Filter) : f.item ≠ "" := by
  unfold Filter.item
  dsimp only
  split
  · simp
  · split <;> simp

theorem Filter.item_of_nullary (f : Filter) (operand : Operand) (nullary : f.operator.isNullary = true) :
    ({ f with operand } : Filter).item = f.item := by
  rw [item, item]
  simp only [nullary, if_true]

theorem where_body_eq_empty (filters : List Filter) :
    Query.whereBody filters = "" ↔ filters.filter Filter.isRenderable = [] :=
  connect_shown_eq_empty _ _ _ _ filter_item_ne_empty

namespace Query

variable (q : Query)

theorem reads_select (unquoted : q.Unquoted) : Reads q.selectClause.toList q.selectPieces := by
  have items : ReadEach (q.selected.map SelectedColumn.item ++ q.computed.map ComputedColumn.item)
      (q.selected.map SelectedColumn.pieces ++ q.computed.map ComputedColumn.pieces) :=
    read_each_append
      (reads_each _ _ _ fun c member => reads_selected c (unquoted.columns c member))
      (reads_each _ _ _ fun c member => reads_computed c (unquoted.computed c member))
  have keyword : Unmarked (if q.distinct then "SELECT DISTINCT " else "SELECT ").toList := by
    split <;> decide
  refine reads_bare_append _ _ _ keyword ?_
  by_cases none : (q.selected.map SelectedColumn.item ++ q.computed.map ComputedColumn.item).isEmpty = true
  · have empty : (q.selected.map SelectedColumn.pieces ++ q.computed.map ComputedColumn.pieces).isEmpty = true := by
      simpa using none
    rw [if_pos none, if_pos empty]
    exact reads_bare "*" (by decide)
  · have some : ¬ (q.selected.map SelectedColumn.pieces ++ q.computed.map ComputedColumn.pieces).isEmpty = true := by
      simpa using none
    rw [if_neg none, if_neg some]
    exact reads_commas _ _ items

theorem reads_where (filters : List Filter)
    (unmarked : ∀ f ∈ filters, f.isRenderable = true → Unmarked f.subject.toList) :
    ReadEach (clause? "WHERE" (whereBody filters)).toList (wherePieces filters) := by
  by_cases none : filters.filter Filter.isRenderable = []
  · simp [clause?, (where_body_eq_empty filters).mpr none, wherePieces, none]
  · have body := reads_connect (filters.filter Filter.isRenderable) Filter.connective Filter.item Filter.pieces
      fun f member => reads_filter f (unmarked f (List.mem_of_mem_filter member) (List.of_mem_filter member))
    have some : whereBody filters ≠ "" := fun empty => none ((where_body_eq_empty filters).mp empty)
    have shown : ¬ (filters.filter Filter.isRenderable).isEmpty = true := by simpa using none
    rw [clause?, if_neg some, wherePieces, if_neg shown]
    exact .cons (reads_bare_append "WHERE " _ _ (by decide) body) .nil

theorem reads_sort_terms (terms : List SortTerm)
    (unmarked : ∀ t ∈ terms, ∀ name, t.reference = some (.column name) → Unmarked name.toList) :
    ReadEach (terms.filterMap SortTerm.item?) (terms.filterMap SortTerm.pieces?) := by
  induction terms with
  | nil => exact .nil
  | cons t rest ih =>
      have tail := ih fun u member => unmarked u (by simp [member])
      cases key : t.key? with
      | none => simpa [SortTerm.item?, SortTerm.pieces?, key] using tail
      | some k =>
          have reference : t.reference = some k := (Option.filter_eq_some_iff.mp key).1
          have direction : Unmarked (" " ++ t.direction.text).toList := by cases t.direction <;> decide
          have head := reads_append_bare _ _ _ direction
            (reads_key k fun name same => unmarked t (by simp) name (by rw [reference, same]))
          rw [← String.append_assoc] at head
          simpa [SortTerm.item?, SortTerm.pieces?, key] using And.intro head tail

theorem reads_order_by (terms : List SortTerm)
    (unmarked : ∀ t ∈ terms, ∀ name, t.reference = some (.column name) → Unmarked name.toList) :
    ReadEach (orderByClause? terms).toList (orderByPieces terms) := by
  have items := reads_sort_terms terms unmarked
  unfold orderByClause? orderByPieces
  dsimp only
  cases texts : terms.filterMap SortTerm.item? with
  | nil =>
      rw [texts, ReadEach, List.forall₂_nil_left_iff] at items
      simp [items]
  | cons first rest =>
      cases pieces : terms.filterMap SortTerm.pieces? with
      | nil =>
          rw [texts, pieces] at items
          cases items
      | cons front others =>
          rw [texts, pieces] at items
          exact .cons (reads_bare_append _ _ _ (by decide) (reads_commas _ _ items)) .nil

theorem clause_lines_eq :
    q.clauseLines = q.selectClause :: (q.sources.take 1).map (fun s => "FROM " ++ s.text s.name) ++
      List.zipWith (fun j s => j.item (s.text s.name)) q.joins (q.sources.drop 1) ++
      ((clause? "WHERE" (whereBody q.filters)).toList ++ q.groupByClause?.toList ++
        (clause? "HAVING" (havingBody q.groupFilters)).toList ++ (orderByClause? q.sorting).toList ++
        q.limitClause?.toList) := by
  have optional : ∀ clauses : List (Option String), clauses.filterMap id = clauses.flatMap Option.toList := by
    intro clauses
    induction clauses with
    | nil => rfl
    | cons clause rest ih => cases clause <;> simpa using ih
  rw [clauseLines, optional]
  simp

theorem reads_lines (unquoted : q.Unquoted) : ReadEach q.clauseLines q.linePieces := by
  rw [clause_lines_eq, linePieces]
  refine read_each_append (read_each_append (.cons (q.reads_select unquoted) ?_) ?_)
    (read_each_append (read_each_append (read_each_append (read_each_append ?_ ?_) ?_) ?_) ?_)
  · exact reads_bare_each _ (q.each_source_lines unmarked_of_ordinary unquoted.sources)
  · exact reads_bare_each _ (q.each_join_lines unmarked_of_ordinary unquoted.sources unquoted.joins)
  · exact reads_where q.filters unquoted.filters
  · exact reads_bare_each _ (q.each_group_by unmarked_of_ordinary unquoted.grouping)
  · exact reads_bare_each _ (q.each_having unmarked_of_ordinary unquoted.groupFilters)
  · exact reads_order_by q.sorting unquoted.sorting
  · exact reads_bare_each _ fun line member => each_of_ordinary unmarked_of_ordinary _ (q.limit_ordinary line member)

theorem lexemes_statement (settings : Settings) (valid : q.issues = []) (unquoted : q.Unquoted) :
    lexemes (q.statement settings).toList = q.pieces settings := by
  rw [statement_of_valid settings q valid, String.append_assoc]
  have trailer := each_of_ordinary unmarked_of_ordinary _ (q.trailer_ordinary settings)
  exact Text.lexemes_of_reads _ _
    (reads_append_bare _ _ _ (unmarked_strings _ ";" trailer (by decide))
      (reads_items "\n" _ _ (by decide) (by decide) (q.reads_lines unquoted)))

end Query

end QueryDraft
