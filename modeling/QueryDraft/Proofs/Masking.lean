import QueryDraft.Proofs.QuotedText

/-!
Quoted text has no influence on the text around it: two queries that differ only in what they put
between quote marks have one masked statement, and the tokens of each are the texts it quotes.
-/

set_option autoImplicit false

namespace QueryDraft

open Text (Lexeme contents lexemes mask)

/-! ## Queries that differ only between quote marks -/

-- An alias may change, but not come or go.
structure SelectedColumn.Alike (c d : SelectedColumn) : Prop where
  name : c.name = d.name
  type : c.type = d.type
  aggregate : c.aggregate = d.aggregate
  asName : c.asName.isSome = d.asName.isSome

-- A list operator splits its text at commas, so there the number of parts has to stay.
inductive Operand.Alike (op : FilterOp) : Operand → Operand → Prop where
  | same (operand : Operand) : Alike op operand operand
  | texts (s t : String) (left : s ≠ "") (right : t ≠ "")
      (commas : op.isList = true → s.toList.count ',' = t.toList.count ',') : Alike op (.text s) (.text t)

structure Filter.Alike (f g : Filter) : Prop where
  subject : f.subject = g.subject
  operator : f.operator = g.operator
  operand : Operand.Alike f.operator f.operand g.operand
  connective : f.connective = g.connective

inductive SortTerm.Alike : SortTerm → SortTerm → Prop where
  | same (t : SortTerm) : Alike t t
  | outputs (a b : String) (direction : Direction) (left : a ≠ "") (right : b ≠ "") :
      Alike ⟨some (.output a), direction⟩ ⟨some (.output b), direction⟩

structure Query.Alike (q r : Query) : Prop where
  sources : q.sources = r.sources
  joins : q.joins = r.joins
  columns : List.Forall₂ (fun a b => a.1 = b.1 ∧ a.2.Alike b.2) q.columns.items r.columns.items
  computed : List.Forall₂ (fun c d => c.expression = d.expression) q.computed r.computed
  filters : List.Forall₂ Filter.Alike q.filters r.filters
  grouping : q.grouping = r.grouping
  groupFilters : q.groupFilters = r.groupFilters
  sorting : List.Forall₂ SortTerm.Alike q.sorting r.sorting
  limit : q.limit = r.limit
  offset : q.offset = r.offset
  distinct : q.distinct = r.distinct

/-! ## Lexemes with their tokens emptied -/

def emptied (pieces : List Lexeme) : List Lexeme := pieces.map Lexeme.emptied

@[simp] theorem emptied_append (a b : List Lexeme) : emptied (a ++ b) = emptied a ++ emptied b := by
  simp [emptied]

@[simp] theorem emptied_bare (s : String) : emptied (bare s) = bare s := by
  simp [emptied, bare, Lexeme.emptied]

@[simp] theorem emptied_token (mark : Char) (text : List Char) (rest : List Lexeme) :
    emptied (.quoted mark text :: rest) = .quoted mark [] :: emptied rest := rfl

theorem map_intercalate {α β : Type} (f : α → β) (separator : List α) (parts : List (List α)) :
    (separator.intercalate parts).map f = (separator.map f).intercalate (parts.map (List.map f)) := by
  induction parts with
  | nil => rfl
  | cons first rest ih =>
      cases rest with
      | nil => simp
      | cons second others =>
          rw [List.intercalate_cons_cons, List.map_append, List.map_append, ih]
          simp [List.intercalate_cons_cons]

theorem emptied_items (separator : String) (items : List (List Lexeme)) :
    emptied ((bare separator).intercalate items) = (bare separator).intercalate (items.map emptied) := by
  have between := emptied_bare separator
  rw [emptied, map_intercalate]
  exact congrArg (fun s => s.intercalate (items.map emptied)) between

theorem map_eq_of_pairs {α β : Type} {R : α → α → Prop} (f : α → β) (xs ys : List α) (pairs : List.Forall₂ R xs ys)
    (each : ∀ x y, R x y → f x = f y) : xs.map f = ys.map f := by
  induction pairs with
  | nil => rfl
  | cons head _ ih => rw [List.map_cons, List.map_cons, each _ _ head, ih]

theorem emptied_selected (c d : SelectedColumn) (alike : c.Alike d) : emptied c.pieces = emptied d.pieces := by
  obtain ⟨name, _, aggregate, asName⟩ := alike
  have expression : c.expression = d.expression := by
    rw [SelectedColumn.expression, SelectedColumn.expression, name, aggregate]
  cases left : c.asName <;> cases right : d.asName <;>
    simp_all [SelectedColumn.pieces]

theorem emptied_computed (c d : ComputedColumn) (alike : c.expression = d.expression) :
    emptied c.pieces = emptied d.pieces := by
  simp [ComputedColumn.pieces, alike]

theorem length_splitOn (separator : Char) (text : List Char) :
    (text.splitOn separator).length = text.count separator + 1 := by
  induction text with
  | nil => rfl
  | cons c rest ih =>
      by_cases same : c = separator <;> simp [List.splitOn_cons_eq_if_modifyHead, same, ih]

theorem emptied_list (operand : Operand) :
    emptied operand.listPieces =
      bare "(" ++ (bare ", ").intercalate (List.replicate (operand.plainText.toList.count ',' + 1) [.quoted '\'' []]) ++
        bare ")" := by
  rw [Operand.listPieces, emptied_append, emptied_append, emptied_items, List.map_map]
  have tokens : operand.parts.map (emptied ∘ fun part => [Lexeme.quoted '\'' part]) =
      List.replicate operand.parts.length [.quoted '\'' []] := by
    rw [← List.map_const]
    rfl
  rw [tokens, Operand.parts, List.length_map, length_splitOn]
  simp

theorem emptied_filter (f g : Filter) (alike : f.Alike g) : emptied f.pieces = emptied g.pieces := by
  obtain ⟨subject, operator, operand, _⟩ := alike
  rw [Filter.pieces, Filter.pieces, subject, operator]
  generalize f.operand = o at operand
  generalize g.operand = p at operand
  cases operand with
  | same => rfl
  | texts s t _ _ commas =>
      by_cases nullary : g.operator.isNullary = true
      · simp [nullary]
      · by_cases list : g.operator.isList = true
        · have same := commas (operator ▸ list)
          simp [nullary, list, emptied_list, Operand.plainText, same]
        · simp [nullary, list, Operand.pieces]

theorem renderable_alike (f g : Filter) (alike : f.Alike g) : f.isRenderable = g.isRenderable := by
  obtain ⟨subject, operator, operand, _⟩ := alike
  rw [Filter.isRenderable, Filter.isRenderable, Filter.hasSubject, Filter.hasSubject, subject, operator]
  generalize f.operand = o at operand
  generalize g.operand = p at operand
  cases operand with
  | same => rfl
  | texts s t left right _ => simp [Operand.isSet, left, right]

theorem emptied_connect (entries : List (Connective × List Lexeme)) :
    emptied (connectPieces entries) = connectPieces (entries.map fun entry => (entry.1, emptied entry.2)) := by
  cases entries with
  | nil => rfl
  | cons first rest =>
      have following : ∀ later : List (Connective × List Lexeme),
          emptied (later.flatMap fun entry => bare (" " ++ entry.1.text ++ " ") ++ entry.2) =
            later.flatMap fun entry => bare (" " ++ entry.1.text ++ " ") ++ emptied entry.2 := by
        intro later
        induction later with
        | nil => rfl
        | cons entry later ih => rw [List.flatMap_cons, emptied_append, emptied_append, emptied_bare, ih]; rfl
      simp only [connectPieces, List.map_cons, emptied_append, following, List.flatMap_map]

theorem key_of_output (name : String) (direction : Direction) (present : name ≠ "") :
    (SortTerm.mk (some (.output name)) direction).key? = some (.output name) := by
  have filled : (SortKey.output name).isEmpty = false := by simp [SortKey.isEmpty, SortKey.name, present]
  simp only [SortTerm.key?, Option.filter_some, filled, Bool.not_false, if_true]

theorem emptied_term (t u : SortTerm) (alike : t.Alike u) : t.pieces?.map emptied = u.pieces?.map emptied := by
  cases alike with
  | same => rfl
  | outputs a b direction left right =>
      simp [SortTerm.pieces?, key_of_output, left, right, SortKey.pieces]

namespace Query

theorem emptied_where (fs gs : List Filter) (alike : List.Forall₂ Filter.Alike fs gs) :
    (wherePieces fs).map emptied = (wherePieces gs).map emptied := by
  have shown : List.Forall₂ Filter.Alike (fs.filter Filter.isRenderable) (gs.filter Filter.isRenderable) :=
    List.rel_filter (fun f g pair => iff_of_eq (congrArg (· = true) (renderable_alike f g pair))) alike
  have items : (fs.filter Filter.isRenderable).map (fun f => (f.connective, emptied f.pieces)) =
      (gs.filter Filter.isRenderable).map (fun f => (f.connective, emptied f.pieces)) :=
    map_eq_of_pairs _ _ _ shown fun f g pair => by rw [pair.connective, emptied_filter f g pair]
  have lengths := congrArg List.length items
  simp only [List.length_map] at lengths
  by_cases none : (fs.filter Filter.isRenderable).length = 0
  · have left : fs.filter Filter.isRenderable = [] := List.length_eq_zero_iff.mp none
    have right : gs.filter Filter.isRenderable = [] := List.length_eq_zero_iff.mp (lengths ▸ none)
    simp [wherePieces, left, right]
  · have left : ¬ (fs.filter Filter.isRenderable).isEmpty = true := by
      simpa only [List.isEmpty_iff, ← List.length_eq_zero_iff] using none
    have right : ¬ (gs.filter Filter.isRenderable).isEmpty = true := by
      simpa only [List.isEmpty_iff, ← List.length_eq_zero_iff, ← lengths] using none
    rw [wherePieces, wherePieces, if_neg left, if_neg right]
    simp only [List.map_cons, List.map_nil, emptied_append, emptied_bare, emptied_connect, List.map_map,
      Function.comp_def, items]

theorem emptied_order_by (ts us : List SortTerm) (alike : List.Forall₂ SortTerm.Alike ts us) :
    (orderByPieces ts).map emptied = (orderByPieces us).map emptied := by
  have items : (ts.filterMap SortTerm.pieces?).map emptied = (us.filterMap SortTerm.pieces?).map emptied := by
    have each := map_eq_of_pairs (fun t => t.pieces?.map emptied) ts us alike emptied_term
    have choose := congrArg (List.filterMap id) each
    simpa only [List.map_filterMap, List.filterMap_map, Function.comp_def, id] using choose
  cases left : ts.filterMap SortTerm.pieces? <;> cases right : us.filterMap SortTerm.pieces? <;>
    simp_all [orderByPieces, emptied_items]

theorem selected_alike (q r : Query) (alike : q.Alike r) : List.Forall₂ SelectedColumn.Alike q.selected r.selected := by
  rw [selected, selected, List.forall₂_map_left_iff, List.forall₂_map_right_iff]
  exact alike.columns.imp fun _ _ pair => pair.2

theorem emptied_select (q r : Query) (alike : q.Alike r) : emptied q.selectPieces = emptied r.selectPieces := by
  have items : (q.selected.map SelectedColumn.pieces ++ q.computed.map ComputedColumn.pieces).map emptied =
      (r.selected.map SelectedColumn.pieces ++ r.computed.map ComputedColumn.pieces).map emptied := by
    have columns := map_eq_of_pairs (fun c => emptied c.pieces) _ _ (selected_alike q r alike) emptied_selected
    have computed := map_eq_of_pairs (fun c => emptied c.pieces) _ _ alike.computed emptied_computed
    simp only [List.map_append, List.map_map, Function.comp_def, columns, computed]
  have empty := congrArg List.isEmpty items
  simp only [List.isEmpty_map] at empty
  simp only [selectPieces, emptied_append, emptied_bare, alike.distinct, empty]
  congr 1
  split
  · rfl
  · rw [emptied_items, emptied_items, items]

theorem emptied_bare_each (texts : List String) : (texts.map bare).map emptied = texts.map bare := by
  simp [Function.comp_def]

theorem emptied_pieces (settings : Settings) (q r : Query) (alike : q.Alike r) :
    emptied (q.pieces settings) = emptied (r.pieces settings) := by
  have lines : q.linePieces.map emptied = r.linePieces.map emptied := by
    have groupBy : q.groupByClause? = r.groupByClause? := by rw [groupByClause?, groupByClause?, alike.grouping]
    have limit : q.limitClause? = r.limitClause? := by rw [limitClause?, limitClause?, alike.limit, alike.offset]
    simp only [linePieces, List.map_append, List.map_cons, emptied_bare_each, emptied_select q r alike,
      emptied_where _ _ alike.filters, emptied_order_by _ _ alike.sorting, alike.sources, alike.joins,
      alike.groupFilters, groupBy, limit]
  have trailer : q.trailer settings = r.trailer settings := by rw [trailer, trailer, alike.limit, alike.offset]
  rw [pieces, pieces, emptied_append, emptied_append, emptied_items, emptied_items, lines, trailer]

end Query

/-! ## What the tokens stand for -/

def tokens (pieces : List Lexeme) : List String := (pieces.filterMap Lexeme.content?).map String.ofList

@[simp] theorem tokens_nil : tokens [] = [] := rfl

@[simp] theorem tokens_append (a b : List Lexeme) : tokens (a ++ b) = tokens a ++ tokens b := by
  simp [tokens]

@[simp] theorem tokens_bare (s : String) : tokens (bare s) = [] := by
  simp [tokens, bare, Function.comp_def, Lexeme.content?]

@[simp] theorem tokens_token (mark : Char) (text : List Char) (rest : List Lexeme) :
    tokens (.quoted mark text :: rest) = String.ofList text :: tokens rest := rfl

theorem tokens_items (separator : String) (items : List (List Lexeme)) :
    tokens ((bare separator).intercalate items) = items.flatMap tokens := by
  induction items with
  | nil => rfl
  | cons first rest ih =>
      cases rest with
      | nil => simp
      | cons second others => simp [List.intercalate_cons_cons, ih]

theorem tokens_connect {α : Type} (entries : List α) (word : α → Connective) (pieces : α → List Lexeme) :
    tokens (connectPieces (entries.map fun a => (word a, pieces a))) = entries.flatMap fun a => tokens (pieces a) := by
  cases entries with
  | nil => rfl
  | cons first rest =>
      have following : tokens (rest.flatMap fun a => bare (" " ++ (word a).text ++ " ") ++ pieces a) =
          rest.flatMap fun a => tokens (pieces a) := by
        induction rest with
        | nil => rfl
        | cons a rest ih => simp only [List.flatMap_cons, tokens_append, tokens_bare, List.nil_append, ih]
      simp only [List.map_cons, connectPieces, List.flatMap_map, tokens_append, following, List.flatMap_cons]

def Filter.quotedTexts (f : Filter) : List String :=
  if f.operator.isNullary then []
  else if f.operator.isList then f.operand.parts.map String.ofList
  else match f.operand with
    | .text s => [s]
    | _ => []

def SortTerm.quotedText? (t : SortTerm) : Option String :=
  match t.key? with
  | some (.output name) => some name
  | _ => none

def Query.quotedTexts (q : Query) : List String :=
  q.selected.filterMap SelectedColumn.asName ++ q.computed.map ComputedColumn.asName ++
    (q.filters.filter Filter.isRenderable).flatMap Filter.quotedTexts ++ q.sorting.filterMap SortTerm.quotedText?

theorem tokens_selected (c : SelectedColumn) : tokens c.pieces = c.asName.toList := by
  cases found : c.asName <;> simp [SelectedColumn.pieces, found]

theorem tokens_computed (c : ComputedColumn) : tokens c.pieces = [c.asName] := by
  simp [ComputedColumn.pieces]

theorem tokens_filter (f : Filter) : tokens f.pieces = f.quotedTexts := by
  unfold Filter.pieces Filter.quotedTexts
  dsimp only
  split
  · exact tokens_bare _
  · split
    · have each : f.operand.parts.flatMap (fun part => tokens [.quoted '\'' part]) =
          f.operand.parts.map String.ofList := by
        simp [List.map_eq_flatMap]
      simp only [Operand.listPieces, tokens_append, tokens_bare, tokens_items, List.flatMap_map, each,
        List.nil_append, List.append_nil]
    · rw [tokens_append, tokens_bare, List.nil_append]
      cases f.operand with
      | int i => exact tokens_bare _
      | float x => exact tokens_bare _
      | text s => simp [Operand.pieces]

theorem tokens_terms (terms : List SortTerm) :
    (terms.filterMap SortTerm.pieces?).flatMap tokens = terms.filterMap SortTerm.quotedText? := by
  induction terms with
  | nil => rfl
  | cons t rest ih =>
      cases key : t.key? with
      | none => simpa [SortTerm.pieces?, SortTerm.quotedText?, key] using ih
      | some k => cases k <;> simpa [SortTerm.pieces?, SortTerm.quotedText?, key, SortKey.pieces] using ih

namespace Query

variable (q : Query)

theorem tokens_select : tokens q.selectPieces =
    q.selected.filterMap SelectedColumn.asName ++ q.computed.map ComputedColumn.asName := by
  have columns : (q.selected.map SelectedColumn.pieces).flatMap tokens = q.selected.filterMap SelectedColumn.asName := by
    simp only [List.flatMap_map, tokens_selected, List.filterMap_eq_flatMap_toList]
  have computed : (q.computed.map ComputedColumn.pieces).flatMap tokens = q.computed.map ComputedColumn.asName := by
    rw [List.flatMap_map, List.map_eq_flatMap]
    exact congrArg (q.computed.flatMap ·) (funext tokens_computed)
  have items : (q.selected.map SelectedColumn.pieces ++ q.computed.map ComputedColumn.pieces).flatMap tokens =
      q.selected.filterMap SelectedColumn.asName ++ q.computed.map ComputedColumn.asName := by
    rw [List.flatMap_append, columns, computed]
  rw [← items, selectPieces, tokens_append, tokens_bare, List.nil_append]
  cases all : q.selected.map SelectedColumn.pieces ++ q.computed.map ComputedColumn.pieces with
  | nil => exact tokens_bare _
  | cons first rest => exact tokens_items _ _

theorem tokens_where (filters : List Filter) :
    (wherePieces filters).flatMap tokens = (filters.filter Filter.isRenderable).flatMap Filter.quotedTexts := by
  by_cases none : filters.filter Filter.isRenderable = []
  · simp [wherePieces, none]
  · have shown : ¬ (filters.filter Filter.isRenderable).isEmpty = true := by simpa using none
    rw [wherePieces, if_neg shown, List.flatMap_singleton, tokens_append, tokens_bare, tokens_connect]
    simp only [tokens_filter, List.nil_append]

theorem tokens_order_by (terms : List SortTerm) :
    (orderByPieces terms).flatMap tokens = terms.filterMap SortTerm.quotedText? := by
  rw [← tokens_terms, orderByPieces]
  cases terms.filterMap SortTerm.pieces? with
  | nil => rfl
  | cons first rest => simp [tokens_items]

theorem tokens_bare_each (texts : List String) : (texts.map bare).flatMap tokens = [] := by
  simp [List.flatMap_map]

theorem tokens_pieces (settings : Settings) : tokens (q.pieces settings) = q.quotedTexts := by
  rw [pieces, tokens_append, tokens_bare, List.append_nil, tokens_items, linePieces]
  simp only [List.flatMap_append, List.flatMap_cons, tokens_bare_each, tokens_select, tokens_where, tokens_order_by,
    List.append_nil, List.nil_append, quotedTexts, List.append_assoc]

/-- Contents of tokens do not reach the text around them, and are read back as they were quoted. -/
theorem masked_statements_agree (settings : Settings) (q r : Query) (valid : q.issues = []) (valid' : r.issues = [])
    (unquoted : q.Unquoted) (unquoted' : r.Unquoted) (alike : q.Alike r) :
    mask (q.statement settings) = mask (r.statement settings) ∧
      contents (q.statement settings) = q.quotedTexts ∧ contents (r.statement settings) = r.quotedTexts := by
  have left := q.lexemes_statement settings valid unquoted
  have right := r.lexemes_statement settings valid' unquoted'
  refine ⟨?_, ?_, ?_⟩
  · have same := emptied_pieces settings q r alike
    rw [mask, mask, Text.maskChars, Text.maskChars, left, right]
    exact congrArg (fun pieces => String.ofList (List.flatMap Lexeme.spelled pieces)) same
  · rw [contents, left]
    exact q.tokens_pieces settings
  · rw [contents, right]
    exact r.tokens_pieces settings

def quotingExample (shown total items city order : String) : Query :=
  { empty with
    sources := [⟨"t1", "users", some "u"⟩]
    columns := Roster.empty.put ("u.id", ⟨"u.id", "integer", none, some shown⟩)
    computed := [⟨"COUNT(1)", total⟩]
    filters := [⟨"u.name", .isIn, .text items, .and⟩, ⟨"u.city", .compare .eq, .text city, .or⟩]
    sorting := [⟨some (.output order), .desc⟩] }

theorem masked_statements_agree_example :
    let q := quotingExample "say \"hi\"" "n" "it's, b" "'; DROP TABLE users; --" "n"
    let r := quotingExample "id" "\"\"" "a,''" "Porto" "\";"
    mask (q.statement .standard) = mask (r.statement .standard) ∧
      contents (q.statement .standard) = q.quotedTexts ∧ contents (r.statement .standard) = r.quotedTexts := by
  intro q r
  have unquoted : ∀ shown total items city order, (quotingExample shown total items city order).Unquoted := by
    intro shown total items city order
    refine ⟨?_, ?_, ?_, ?_, ?_, ?_, ?_, ?_⟩
    · simp only [quotingExample, List.forall_mem_singleton, Option.some.injEq, forall_eq']
      decide
    · simp [quotingExample, empty]
    · simp only [quotingExample, selected]
      intro c member
      obtain rfl : c = ⟨"u.id", "integer", none, some shown⟩ := by
          simpa [Roster.put, Roster.has, Roster.empty] using member
      exact (by decide : Text.Unmarked "u.id".toList)
    · simp only [quotingExample, List.forall_mem_singleton]
      decide
    · simp only [quotingExample, List.forall_mem_cons]
      exact ⟨fun _ => by decide, fun _ => by decide, by simp⟩
    · simp [quotingExample, empty, Roster.empty]
    · simp [quotingExample, empty]
    · simp [quotingExample]
  refine masked_statements_agree .standard q r (by decide) (by decide) (unquoted ..) (unquoted ..) ?_
  refine ⟨rfl, rfl, ?_, ?_, ?_, rfl, rfl, ?_, rfl, rfl, rfl⟩
  · exact .cons ⟨rfl, rfl, rfl, rfl, rfl⟩ .nil
  · exact .cons rfl .nil
  · refine .cons ⟨rfl, rfl, .texts _ _ (by decide) (by decide) (fun _ => by decide), rfl⟩ (.cons ⟨rfl, rfl, ?_, rfl⟩ .nil)
    exact .texts _ _ (by decide) (by decide) (fun list => by cases list)
  · exact .cons (.outputs _ _ _ (by decide) (by decide)) .nil

end Query

end QueryDraft
