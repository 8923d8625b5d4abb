import Mathlib.Data.List.ModifyLast
import QueryDraft.Proofs.Blanks
import QueryDraft.Proofs.ClauseLines
import QueryDraft.Proofs.IssueRules

/-!
The lines of a statement as its text shows them. Where no text of the query holds a line feed, splitting
the statement at its line feeds gives its clauses back, one line each.
-/

set_option autoImplicit false

namespace QueryDraft

open Text (Each Ordinary each_append)

/-! ## Texts on one line -/

namespace Text

abbrev Inline (text : String) : Prop := Each (· ≠ '\n') text

def splitLines (text : String) : List String := (text.toList.splitOn '\n').map String.ofList

theorem split_lines_intercalate (lines : List String) (some : lines ≠ []) (inline : ∀ line ∈ lines, Inline line) :
    splitLines ("\n".intercalate lines) = lines := by
  have each : ∀ chars ∈ lines.map String.toList, '\n' ∉ chars := by
    intro chars member feed
    obtain ⟨line, inside, rfl⟩ := List.mem_map.mp member
    exact inline line inside '\n' feed rfl
  have split := List.splitOn_intercalate '\n' each (by simpa using some)
  rw [splitLines, String.toList_intercalate]
  refine (congrArg (List.map String.ofList) split).trans ?_
  simp [Function.comp_def]

theorem inline_append (a b : String) : Inline (a ++ b) ↔ Inline a ∧ Inline b := each_append _ a b

-- A text behind the lines stands on the last one.
theorem split_lines_extended (lines : List String) (some : lines ≠ []) (text : String)
    (inline : ∀ line ∈ lines, Inline line) (extra : Inline text) :
    splitLines ("\n".intercalate lines ++ text) = lines.modifyLast (· ++ text) := by
  obtain rfl | ⟨front, last, rfl⟩ := List.eq_nil_or_concat' lines
  · exact absurd rfl some
  · rw [List.forall_mem_append, List.forall_mem_singleton] at inline
    have single : ∀ line ∈ front ++ [last ++ text], Inline line := by
      rw [List.forall_mem_append, List.forall_mem_singleton, inline_append]
      exact ⟨inline.1, inline.2, extra⟩
    rw [List.modifyLast_concat, ← intercalate_last, split_lines_intercalate _ (by simp) single]

theorem mem_double (q c : Char) (text : List Char) : c ∈ double q text ↔ c ∈ text := by
  induction text with
  | nil => rfl
  | cons d rest ih =>
      rw [double]
      split
      · rename_i same
        simp [ih, same]
      · simp [ih]

theorem each_quoted (P : Char → Prop) (mark : Char) (text : String) (between : P mark) (each : Each P text) :
    Each P (String.ofList (quote mark text.toList)) := by
  intro c member
  rw [String.toList_ofList, quote, List.cons_append, List.mem_cons, List.mem_append, mem_double] at member
  rcases member with rfl | inside | last
  · exact between
  · exact each c inside
  · rwa [List.mem_singleton.mp last]

theorem inline_string (text : String) (inline : Inline text) : Inline (stringLiteral text) :=
  each_quoted _ _ text (by decide) inline

theorem inline_name (text : String) (inline : Inline text) : Inline (nameLiteral text) :=
  each_quoted _ _ text (by decide) inline

theorem mem_intercalate (separator : List Char) (parts : List (List Char)) (part : List Char) (c : Char)
    (inside : part ∈ parts) (member : c ∈ part) : c ∈ separator.intercalate parts := by
  induction parts with
  | nil => cases inside
  | cons first rest ih =>
      cases rest with
      | nil =>
          obtain rfl := List.mem_singleton.mp inside
          simpa using member
      | cons second others =>
          rw [List.intercalate_cons_cons, List.append_assoc, List.mem_append, List.mem_append]
          rcases List.mem_cons.mp inside with rfl | later
          · exact .inl member
          · exact .inr (.inr (ih later))

theorem mem_of_mem_split (separator c : Char) (text part : List Char) (inside : part ∈ text.splitOn separator)
    (member : c ∈ part) : c ∈ text := by
  have whole := mem_intercalate [separator] _ part c inside member
  rwa [List.intercalate_splitOn] at whole

theorem inline_of_ordinary (c : Char) (ordinary : Ordinary c) : c ≠ '\n' := ordinary.2

end Text

open Text (Inline inline_append inline_name inline_of_ordinary inline_string)

/-! ## The texts of a query -/

def Source.texts (s : Source) : List String := s.id :: s.name :: s.asName.toList

def Join.texts (j : Join) : List String := [j.left, j.right]

def SelectedColumn.texts (c : SelectedColumn) : List String := c.name :: c.type :: c.asName.toList

def ComputedColumn.texts (c : ComputedColumn) : List String := [c.expression, c.asName]

def Operand.texts : Operand → List String
  | .text s => [s]
  | _ => []

def Filter.texts (f : Filter) : List String := f.subject :: f.operand.texts

def GroupFilter.texts (f : GroupFilter) : List String := [f.column, f.bound]

def SortTerm.texts (t : SortTerm) : List String := t.reference.toList.map SortKey.name

-- Every text that stands in a query, whether a statement shows it or not.
def Query.texts (q : Query) : List String :=
  q.sources.flatMap Source.texts ++ q.joins.flatMap Join.texts ++
    q.columns.items.flatMap (fun (key, c) => key :: c.texts) ++ q.computed.flatMap ComputedColumn.texts ++
    q.filters.flatMap Filter.texts ++ q.grouping.items ++ q.groupFilters.flatMap GroupFilter.texts ++
    q.sorting.flatMap SortTerm.texts

/-! ## Items on one line -/

theorem inline_plain_text (operand : Operand) (texts : ∀ text ∈ operand.texts, Inline text) :
    Inline operand.plainText := by
  have number := fun bare => each_of_ordinary inline_of_ordinary _ (number_ordinary operand bare)
  cases operand with
  | int i => exact number (by simp)
  | float x => exact number (by simp)
  | text s => exact texts s (List.mem_singleton_self s)

theorem inline_literal (operand : Operand) (texts : ∀ text ∈ operand.texts, Inline text) : Inline operand.literal := by
  have plain := inline_plain_text operand texts
  cases operand with
  | int i => exact plain
  | float x => exact plain
  | text s => exact inline_string s plain

theorem inline_list_literal (operand : Operand) (texts : ∀ text ∈ operand.texts, Inline text) :
    Inline operand.listLiteral := by
  have plain := inline_plain_text operand texts
  rw [Operand.listLiteral, inline_append, inline_append]
  refine ⟨⟨by decide, each_commas inline_of_ordinary _ fun item member => ?_⟩, by decide⟩
  obtain ⟨part, inside, rfl⟩ := List.mem_map.mp member
  refine inline_string _ fun c char => ?_
  rw [String.toList_ofList] at char
  exact plain c (Text.mem_of_mem_split ',' c _ part inside (Text.mem_of_mem_trim c part char))

theorem inline_selected (c : SelectedColumn) (texts : ∀ text ∈ c.texts, Inline text) : Inline c.item := by
  simp only [SelectedColumn.texts, List.forall_mem_cons, Option.mem_toList] at texts
  obtain ⟨name, -, asName⟩ := texts
  have expression := each_expression inline_of_ordinary c name
  unfold SelectedColumn.item
  split
  · rename_i text found
    exact each_named inline_of_ordinary _ _ expression (inline_name text (asName text found))
  · exact expression

theorem inline_computed (c : ComputedColumn) (texts : ∀ text ∈ c.texts, Inline text) : Inline c.item := by
  simp only [ComputedColumn.texts, List.forall_mem_cons] at texts
  obtain ⟨expression, asName, -⟩ := texts
  exact each_named inline_of_ordinary _ _ expression (inline_name _ asName)

theorem inline_filter (f : Filter) (texts : ∀ text ∈ f.texts, Inline text) : Inline f.item := by
  obtain ⟨subject, operand⟩ := List.forall_mem_cons.mp texts
  have head := each_filter_head inline_of_ordinary f subject
  unfold Filter.item
  dsimp only
  split
  · exact head
  · split
    · exact each_spaced inline_of_ordinary _ _ head (inline_list_literal _ operand)
    · exact each_spaced inline_of_ordinary _ _ head (inline_literal _ operand)

theorem inline_sort_term (t : SortTerm) (texts : ∀ text ∈ t.texts, Inline text) : ∀ item ∈ t.item?, Inline item := by
  intro item member
  obtain ⟨k, key, rfl⟩ := Option.map_eq_some_iff.mp member
  have name : Inline k.name := by
    have reference := (Option.filter_eq_some_iff.mp key).1
    exact texts k.name (by simp [SortTerm.texts, reference])
  refine each_spaced inline_of_ordinary _ _ ?_ (each_of_ordinary inline_of_ordinary _ (direction_ordinary t.direction))
  cases k with
  | column text => exact name
  | output text => exact inline_name text name

/-! ## Clauses on one line -/

namespace Query

variable (q : Query)

theorem inline_select (columns : ∀ c ∈ q.selected, ∀ text ∈ c.texts, Inline text)
    (computed : ∀ c ∈ q.computed, ∀ text ∈ c.texts, Inline text) : Inline q.selectClause := by
  have items : ∀ item ∈ q.selected.map SelectedColumn.item ++ q.computed.map ComputedColumn.item, Inline item := by
    simp only [List.forall_mem_append, List.forall_mem_map]
    exact ⟨fun c member => inline_selected c (columns c member), fun c member => inline_computed c (computed c member)⟩
  rw [selectClause, inline_append]
  refine ⟨by cases q.distinct <;> decide, ?_⟩
  split
  · decide
  · exact each_commas inline_of_ordinary _ items

theorem inline_where (filters : ∀ f ∈ q.filters, ∀ text ∈ f.texts, Inline text) :
    ∀ line ∈ (clause? "WHERE" (whereBody q.filters)).toList, Inline line := by
  refine each_clause inline_of_ordinary _ _ (by decide) (each_connect inline_of_ordinary _ fun entry member => ?_)
  obtain ⟨f, shown, rfl⟩ := List.mem_map.mp member
  exact inline_filter f (filters f (List.mem_of_mem_filter shown))

theorem inline_order_by (sorting : ∀ t ∈ q.sorting, ∀ text ∈ t.texts, Inline text) :
    ∀ line ∈ (orderByClause? q.sorting).toList, Inline line := by
  intro line member
  unfold orderByClause? at member
  dsimp only at member
  split at member
  · cases member
  · obtain rfl : line = "ORDER BY " ++ ", ".intercalate (q.sorting.filterMap SortTerm.item?) := by simpa using member
    rw [inline_append]
    refine ⟨by decide, each_commas inline_of_ordinary _ fun item inside => ?_⟩
    obtain ⟨t, among, shown⟩ := List.mem_filterMap.mp inside
    exact inline_sort_term t (sorting t among) item shown

theorem inline_lines (inline : ∀ text ∈ q.texts, Inline text) : ∀ line ∈ q.clauseLines, Inline line := by
  simp only [texts, List.forall_mem_append, List.forall_mem_flatMap, and_assoc] at inline
  obtain ⟨sources, joins, columns, computed, filters, grouping, groupFilters, sorting⟩ := inline
  have named : ∀ s ∈ q.sources, Inline s.name ∧ ∀ asName, s.asName = some asName → Inline asName := by
    intro s member
    have each := sources s member
    simp only [Source.texts, List.forall_mem_cons, Option.mem_toList] at each
    exact each.2
  have selected : ∀ c ∈ q.selected, ∀ text ∈ c.texts, Inline text := by
    rw [Query.selected, List.forall_mem_map]
    exact fun entry member text among => columns entry member text (List.mem_cons_of_mem _ among)
  have joined : ∀ j ∈ q.joins, Inline j.left ∧ Inline j.right := by
    simpa [Join.texts] using joins
  have grouped : ∀ f ∈ q.groupFilters, f.isRenderable = true → Inline f.column ∧ Inline f.bound := by
    intro f member _
    simpa [GroupFilter.texts] using groupFilters f member
  rw [clause_lines_eq]
  simp only [List.forall_mem_append, List.forall_mem_cons]
  exact ⟨⟨⟨q.inline_select selected computed, q.each_source_lines inline_of_ordinary named⟩,
    q.each_join_lines inline_of_ordinary named joined⟩,
    ⟨⟨⟨q.inline_where filters, q.each_group_by inline_of_ordinary grouping⟩,
      q.each_having inline_of_ordinary grouped⟩, q.inline_order_by sorting⟩,
    fun line member => each_of_ordinary inline_of_ordinary _ (q.limit_ordinary line member)⟩

/-! ## The statement -/

theorem layout_ne_nil : q.layout ≠ [] := by
  simp [layout]

theorem layout_join (paired : q.Paired) (i : Nat) (j : Join) (found : q.joins[i]? = some j) :
    ∃ s, q.joined? i = some s ∧ q.layout[i + 2]? = some (.join, j.item (s.text s.name)) := by
  obtain ⟨within, rfl⟩ := List.getElem?_eq_some_iff.mp found
  obtain ⟨driving, rest, sources, counts⟩ := paired.driving
  have among : i < rest.length := counts ▸ within
  refine ⟨rest[i], by simp [joined?, sources, among], ?_⟩
  simp only [layout, sources, List.take_succ_cons, List.take_zero, List.map_cons, List.map_nil, List.cons_append,
    List.nil_append, List.append_assoc, List.getElem?_cons_succ, List.drop_succ_cons, List.drop_zero]
  rw [List.getElem?_append_left (by rw [List.length_zipWith]; omega), List.getElem?_zipWith, found,
    List.getElem?_eq_getElem among]

theorem stages_extended (layout : List (Stage × String)) (some : layout ≠ []) (extra : String)
    (opens : ∀ entry ∈ layout, entry.1.Opens entry.2) :
    ((layout.map Prod.snd).modifyLast (· ++ extra)).map Stage.ofLine? = (layout.map Prod.fst).map .some := by
  obtain rfl | ⟨front, last, rfl⟩ := List.eq_nil_or_concat' layout
  · exact absurd rfl some
  · simp only [List.forall_mem_append, List.forall_mem_singleton] at opens
    obtain ⟨before, behind⟩ := opens
    rw [List.map_append, List.map_singleton, List.modifyLast_concat, List.map_append, List.map_map, List.map_map,
      List.map_append, List.map_singleton, List.map_singleton,
      Stage.of_line_opens _ _ (Stage.opens_append _ _ extra behind)]
    congr 1
    exact List.map_congr_left fun entry member => Stage.of_line_opens _ _ (before entry member)

/-- The statement of a query without issues, split at its line feeds, is the layout of the query: one clause a
line, every join at the line of the table it attaches. An OFFSET on its own stands behind the last line. -/
theorem statement_lines (settings : Settings) (valid : q.issues = []) (inline : ∀ text ∈ q.texts, Inline text) :
    q.alignment = .aligned ∧ (∀ s ∈ q.sources, s.id ≠ "" ∧ s.name ≠ "") ∧
      (∃ driving rest, q.sources = driving :: rest ∧ rest.length = q.joins.length) ∧
      (∀ i j, q.joins[i]? = some j →
        ∃ s, q.joined? i = some s ∧ q.layout[i + 2]? = some (.join, j.item (s.text s.name))) ∧
      ∃ body, q.statement settings = body ++ ";" ∧
        Text.splitLines body = (q.layout.map Prod.snd).modifyLast (· ++ q.trailer settings) ∧
        (Text.splitLines body).map Stage.ofLine? = q.stages.map some := by
  have paired := paired_of_valid q valid
  refine ⟨?_, ?_, paired.driving, q.layout_join paired, "\n".intercalate q.clauseLines ++ q.trailer settings,
    statement_of_valid settings q valid, ?_⟩
  · simp [alignment, Alignment.ofCounts, paired.counts]
  · intro s member
    rw [← not_or, ← not_named_iff, paired.named s member]
    decide
  · have trailer := each_of_ordinary inline_of_ordinary _ (q.trailer_ordinary settings)
    have present : q.clauseLines ≠ [] := by simp [clauseLines]
    rw [Text.split_lines_extended _ present _ (q.inline_lines inline) trailer, ← q.layout_lines]
    exact ⟨rfl, q.layout_stages paired ▸ stages_extended _ q.layout_ne_nil _ q.layout_opens⟩

theorem statement_lines_example :
    ∃ body, spendings.statement .standard = body ++ ";" ∧
      Text.splitLines body =
        ["SELECT u.id, SUM(items.price) AS \"spent\"", "FROM users AS u", "INNER JOIN orders ON u.id = orders.user_id",
          "LEFT JOIN items ON orders.id = items.order_id", "WHERE u.name != 'Ann; Bob'", "GROUP BY u.id",
          "HAVING SUM(items.price) > 10", "ORDER BY \"spent\" DESC OFFSET 20"] := by
  obtain ⟨-, -, -, -, body, text, lines, -⟩ := spendings.statement_lines .standard (by decide) (by decide)
  exact ⟨body, text, lines.trans (by decide)⟩

end Query
end QueryDraft
