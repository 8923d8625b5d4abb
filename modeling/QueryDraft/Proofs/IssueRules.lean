import QueryDraft.Query.Issue

/-!
What the issues of a query mean. A list of issues holds exactly those whose rule the query breaks, each
once, in the order of the rules and within a rule in the order of the positions.
-/

set_option autoImplicit false

namespace QueryDraft

/-! ## The order of issues -/

namespace Issue

def rule : Issue → Nat
  | noTable => 1
  | missingJoins => 2
  | incompleteJoin _ => 3
  | emptyProjection => 4
  | ungroupedColumns _ => 5
  | emptyExpression _ | emptyAlias _ => 6
  | duplicateAlias _ _ => 7
  | joinWithoutTable _ => 8

-- Issues about the query as a whole have no position.
def position : Issue → Nat
  | incompleteJoin k | emptyExpression k | emptyAlias k | duplicateAlias k _ | joinWithoutTable k => k
  | _ => 0

-- Two issues may share a position only under the sixth rule: the expression comes before the alias.
def part : Issue → Nat
  | emptyAlias _ => 1
  | _ => 0

def Before (i j : Issue) : Prop :=
  i.rule < j.rule ∨ i.rule = j.rule ∧ (i.position < j.position ∨ i.position = j.position ∧ i.part < j.part)

theorem before_irrefl (i : Issue) : ¬ i.Before i := by
  simp [Before]

end Issue

/-! ## The rules -/

-- The entry at a position that counts from 1.
def EntryAt {α : Type} (items : List α) (position : Nat) (a : α) : Prop :=
  position ≠ 0 ∧ items[position - 1]? = some a

-- A table that cannot stand in a statement: not there, not picked, or not known to the catalog.
def Query.TableLacks (q : Query) (idx : Nat) : Prop :=
  ∀ s, q.sources[idx]? = some s → s.id = "" ∨ s.name = ""

namespace Query

def Breaks (q : Query) : Issue → Prop
  | .noTable => q.TableLacks 0
  | .missingJoins => 2 ≤ q.sources.length ∧ q.joins.length ≠ q.sources.length - 1
  | .incompleteJoin k => ∃ j, EntryAt q.joins k j ∧ (j.left = "" ∨ j.right = "")
  | .emptyProjection => q.columns.items = [] ∧ q.computed = []
  | .ungroupedColumns names =>
    (∃ c ∈ q.selected, c.aggregate ≠ none) ∧ names ≠ [] ∧
      names = (q.selected.filter fun c => c.aggregate = none ∧ c.name ∉ q.grouping.items).map SelectedColumn.name
  | .emptyExpression k => ∃ c, EntryAt q.computed k c ∧ c.expression = ""
  | .emptyAlias k => ∃ c, EntryAt q.computed k c ∧ c.asName = ""
  | .duplicateAlias k asName =>
    ∃ c, EntryAt q.computed k c ∧ c.asName = asName ∧ asName ≠ "" ∧
      ((∃ s ∈ q.selected, s.asName = some asName) ∨ ∃ d ∈ q.computed.take (k - 1), d.asName = asName)
  | .joinWithoutTable k => ∃ j, EntryAt q.joins k j ∧ q.TableLacks k

/-! ## Membership -/

theorem exists_entry_cons {α : Type} (P : Nat → α → Prop) (a : α) (rest : List α) :
    (∃ n b, (a :: rest)[n]? = some b ∧ P n b) ↔ P 0 a ∨ ∃ n b, rest[n]? = some b ∧ P (n + 1) b := by
  constructor
  · rintro ⟨n, b, found, holds⟩
    cases n with
    | zero =>
        obtain rfl : a = b := by simpa using found
        exact .inl holds
    | succ n => exact .inr ⟨n, b, by simpa using found, holds⟩
  · rintro (holds | ⟨n, b, found, holds⟩)
    · exact ⟨0, a, rfl, holds⟩
    · exact ⟨n + 1, b, by simpa using found, holds⟩

-- The walks over a list count from 0 and number its entries from 1.
theorem exists_numbered {α : Type} (P : Nat → α → Prop) (items : List α) (k : Nat) :
    (∃ n a, items[n]? = some a ∧ P (1 + n) a ∧ k = 1 + n) ↔ ∃ a, EntryAt items k a ∧ P k a := by
  constructor
  · rintro ⟨n, a, found, holds, rfl⟩
    exact ⟨a, ⟨by omega, by simpa using found⟩, holds⟩
  · rintro ⟨a, ⟨positive, found⟩, holds⟩
    have back : 1 + (k - 1) = k := by omega
    exact ⟨k - 1, a, found, by rwa [back], back.symm⟩

theorem not_complete_iff (j : Join) : j.isComplete = false ↔ j.left = "" ∨ j.right = "" := by
  by_cases left : j.left = "" <;> simp [Join.isComplete, left]

theorem not_named_iff (s : Source) : s.isNamed = false ↔ s.id = "" ∨ s.name = "" := by
  by_cases id : s.id = "" <;> simp [Source.isNamed, Source.isPicked, id]

theorem mem_endpoint_issues (position : Nat) (joins : List Join) (i : Issue) :
    i ∈ endpointIssues position joins ↔
      ∃ n j, joins[n]? = some j ∧ (j.left = "" ∨ j.right = "") ∧ i = .incompleteJoin (position + n) := by
  induction joins generalizing position with
  | nil => simp [endpointIssues]
  | cons j rest ih =>
      rw [endpointIssues, List.mem_append, ih, exists_entry_cons]
      refine or_congr ?_ (by simp only [Nat.add_assoc, Nat.add_comm 1])
      rw [← not_complete_iff]
      cases j.isComplete <;> simp

theorem mem_computed_issues (position : Nat) (computed : List ComputedColumn) (i : Issue) :
    i ∈ computedIssues position computed ↔
      ∃ n c, computed[n]? = some c ∧ (c.expression = "" ∧ i = .emptyExpression (position + n) ∨
        c.asName = "" ∧ i = .emptyAlias (position + n)) := by
  induction computed generalizing position with
  | nil => simp [computedIssues]
  | cons c rest ih =>
      rw [computedIssues, List.mem_append, List.mem_append, ih, exists_entry_cons]
      refine or_congr (or_congr ?_ ?_) (by simp only [Nat.add_assoc, Nat.add_comm 1])
      · by_cases empty : c.expression = "" <;> simp [empty]
      · by_cases empty : c.asName = "" <;> simp [empty]

-- What a column adds to the aliases used before the ones behind it. An empty alias adds nothing.
theorem used_behind (name : String) (used : List String) (c : ComputedColumn) (before : List ComputedColumn) :
    (name ∈ c.asName :: used ∨ ∃ d ∈ before, d.asName = name) ↔
      name ∈ used ∨ ∃ d ∈ c :: before, d.asName = name := by
  simp only [List.mem_cons, or_and_right, exists_or, exists_eq_left]
  rw [@eq_comm _ c.asName, or_assoc, or_left_comm]

theorem used_behind_empty (name : String) (used : List String) (c : ComputedColumn) (before : List ComputedColumn)
    (empty : c.asName = "") (present : name ≠ "") :
    (name ∈ used ∨ ∃ d ∈ before, d.asName = name) ↔ name ∈ used ∨ ∃ d ∈ c :: before, d.asName = name := by
  simp only [List.mem_cons, or_and_right, exists_or, exists_eq_left, empty, Ne.symm present, false_or]

theorem mem_alias_issues (position : Nat) (used : List String) (computed : List ComputedColumn) (i : Issue) :
    i ∈ aliasIssues position used computed ↔
      ∃ n c, computed[n]? = some c ∧ c.asName ≠ "" ∧
        (c.asName ∈ used ∨ ∃ d ∈ computed.take n, d.asName = c.asName) ∧
        i = .duplicateAlias (position + n) c.asName := by
  induction computed generalizing position used with
  | nil => simp [aliasIssues]
  | cons c rest ih =>
      rw [exists_entry_cons, aliasIssues]
      simp only [List.take_succ_cons]
      by_cases empty : c.asName = ""
      · rw [if_pos empty, ih, or_iff_right (fun head => head.1 empty)]
        refine exists_congr fun n => exists_congr fun d => and_congr_right fun _ => and_congr_right fun present => ?_
        rw [used_behind_empty _ _ c _ empty present, Nat.add_assoc, Nat.add_comm 1]
      · rw [if_neg empty, List.mem_append, ih]
        refine or_congr (by by_cases known : c.asName ∈ used <;> simp [known, empty]) ?_
        refine exists_congr fun n => exists_congr fun d => and_congr_right fun _ => and_congr_right fun _ => ?_
        rw [used_behind, Nat.add_assoc, Nat.add_comm 1]

theorem mem_attachment_issues (position : Nat) (joins : List Join) (sources : List Source) (i : Issue) :
    i ∈ attachmentIssues position joins sources ↔
      ∃ n j, joins[n]? = some j ∧ (∀ s, sources[n]? = some s → s.id = "" ∨ s.name = "") ∧
        i = .joinWithoutTable (position + n) := by
  induction joins generalizing position sources with
  | nil => simp [attachmentIssues]
  | cons j joins ih =>
      rw [exists_entry_cons]
      cases sources with
      | nil => simp [attachmentIssues, ih, Nat.add_assoc, Nat.add_comm 1]
      | cons s rest =>
          rw [attachmentIssues, List.mem_append, ih]
          refine or_congr ?_ (by simp [Nat.add_assoc, Nat.add_comm 1])
          simp only [List.getElem?_cons_zero, Option.some.injEq, forall_eq', ← not_named_iff]
          cases s.isNamed <;> simp

theorem ungrouped_eq (q : Query) :
    q.ungrouped =
      (q.selected.filter fun c => c.aggregate = none ∧ c.name ∉ q.grouping.items).map SelectedColumn.name := by
  have same : ∀ c : SelectedColumn, (!c.isAggregated && !q.grouping.has c.name) =
      decide (c.aggregate = none ∧ c.name ∉ q.grouping.items) := by
    intro c
    have grouped := q.grouping.has_iff c.name
    rw [List.map_id] at grouped
    rw [Bool.eq_iff_iff, decide_eq_true_iff, Bool.and_eq_true, Bool.not_eq_true', Bool.not_eq_true', ← grouped,
      Bool.not_eq_true]
    simp [SelectedColumn.isAggregated]
  rw [ungrouped, List.filter_congr fun c _ => same c]

theorem mem_table_issues (q : Query) (i : Issue) : i ∈ q.tableIssues ↔ q.TableLacks 0 ∧ i = .noTable := by
  have lacks : q.TableLacks 0 ↔ ¬ q.sources.head?.any Source.isNamed = true := by
    rw [TableLacks, ← List.head?_eq_getElem?]
    cases q.sources.head? with
    | none => simp
    | some s => simp [← not_named_iff]
  rw [tableIssues, List.mem_ite_nil_left, lacks, List.mem_singleton]

theorem mem_alignment_issues (q : Query) (i : Issue) :
    i ∈ q.alignmentIssues ↔
      (2 ≤ q.sources.length ∧ q.joins.length ≠ q.sources.length - 1) ∧ i = .missingJoins := by
  rw [alignmentIssues, List.mem_ite_nil_right, List.mem_singleton, Bool.not_eq_true',
    ← Bool.not_eq_true, alignment, Alignment.is_aligned_iff]
  rfl

theorem mem_projection_issues (q : Query) (i : Issue) :
    i ∈ q.projectionIssues ↔ (q.columns.items = [] ∧ q.computed = []) ∧ i = .emptyProjection := by
  rw [projectionIssues, List.mem_ite_nil_right, Bool.and_eq_true, List.isEmpty_iff, List.isEmpty_iff,
    List.mem_singleton]

-- A column that is not grouped by is a plain one, so the columns are mixed once another is aggregated.
theorem mem_grouping_issues (q : Query) (i : Issue) :
    i ∈ q.groupingIssues ↔
      ((∃ c ∈ q.selected, c.aggregate ≠ none) ∧ q.ungrouped ≠ []) ∧ i = .ungroupedColumns q.ungrouped := by
  have aggregated : q.selected.any SelectedColumn.isAggregated = true ↔ ∃ c ∈ q.selected, c.aggregate ≠ none := by
    simp [SelectedColumn.isAggregated, Option.isSome_iff_ne_none]
  have plain : q.ungrouped ≠ [] → (q.selected.any fun c => !c.isAggregated) = true := by
    intro some
    obtain ⟨name, member⟩ := List.exists_mem_of_ne_nil _ some
    obtain ⟨c, found, -⟩ := List.mem_map.mp member
    obtain ⟨selected, fails⟩ := List.mem_filter.mp found
    exact List.any_eq_true.mpr ⟨c, selected, (Bool.and_eq_true_iff.mp fails).1⟩
  rw [groupingIssues, List.mem_ite_nil_right, List.mem_singleton]
  refine and_congr_left fun _ => ?_
  rw [Bool.and_eq_true, Bool.and_eq_true, aggregated, Bool.not_eq_true', List.isEmpty_eq_false_iff]
  exact ⟨fun ⟨⟨found, _⟩, left⟩ => ⟨found, left⟩, fun ⟨found, left⟩ => ⟨⟨found, plain left⟩, left⟩⟩

theorem mem_issues (q : Query) (i : Issue) : i ∈ q.issues ↔ q.Breaks i := by
  simp only [issues, List.mem_append, mem_table_issues, mem_alignment_issues, mem_endpoint_issues, mem_projection_issues,
    mem_grouping_issues, mem_computed_issues, mem_alias_issues, mem_attachment_issues]
  cases i with
  | noTable => simp [Breaks]
  | missingJoins => simp [Breaks]
  | incompleteJoin k =>
      simpa [Breaks] using exists_numbered (fun _ (j : Join) => j.left = "" ∨ j.right = "") q.joins k
  | emptyProjection => simp [Breaks]
  | ungroupedColumns names =>
      rw [Breaks, ← ungrouped_eq]
      simp only [reduceCtorEq, and_false, exists_false, false_or, or_false, Issue.ungroupedColumns.injEq, and_assoc]
      exact and_congr_right fun _ => and_congr_left fun same => by rw [same]
  | emptyExpression k =>
      simpa [Breaks] using exists_numbered (fun _ (c : ComputedColumn) => c.expression = "") q.computed k
  | emptyAlias k => simpa [Breaks] using exists_numbered (fun _ (c : ComputedColumn) => c.asName = "") q.computed k
  | duplicateAlias k name =>
      rw [Breaks, ← exists_numbered fun k (c : ComputedColumn) => c.asName = name ∧ name ≠ "" ∧
        ((∃ s ∈ q.selected, s.asName = some name) ∨ ∃ d ∈ q.computed.take (k - 1), d.asName = name)]
      simp only [reduceCtorEq, and_false, exists_false, false_or, or_false, Issue.duplicateAlias.injEq,
        Nat.add_sub_cancel_left, List.mem_filterMap]
      refine exists_congr fun n => exists_congr fun c => and_congr_right fun _ => ?_
      constructor
      · rintro ⟨present, used, rfl, rfl⟩
        exact ⟨⟨rfl, present, used⟩, rfl⟩
      · rintro ⟨⟨rfl, present, used⟩, rfl⟩
        exact ⟨present, used, rfl, rfl⟩
  | joinWithoutTable k =>
      rw [Breaks, ← exists_numbered fun k (_ : Join) => q.TableLacks k]
      simp only [reduceCtorEq, and_false, or_self, exists_false, false_or, Issue.joinWithoutTable.injEq,
        List.getElem?_drop, TableLacks]

theorem issues_nil (q : Query) : q.issues = [] ↔ ∀ i, ¬ q.Breaks i := by
  rw [List.eq_nil_iff_forall_not_mem]
  exact forall_congr' fun i => not_congr (mem_issues q i)

/-! ## Order -/

-- The issues of one rule from a position on.
structure Placed (rule start : Nat) (issues : List Issue) : Prop where
  each : ∀ i ∈ issues, i.rule = rule ∧ start ≤ i.position
  ordered : issues.Pairwise Issue.Before

theorem placed_nil (rule start : Nat) : Placed rule start [] := ⟨nofun, .nil⟩

-- A walk puts the issues of one entry before those of the entries behind it.
theorem placed_entry (rule start : Nat) (front rest : List Issue)
    (here : ∀ i ∈ front, i.rule = rule ∧ i.position = start) (ordered : front.Pairwise Issue.Before)
    (behind : Placed rule (start + 1) rest) : Placed rule start (front ++ rest) := by
  constructor
  · intro i member
    rcases List.mem_append.mp member with first | later
    · obtain ⟨same, position⟩ := here i first
      exact ⟨same, Nat.le_of_eq position.symm⟩
    · obtain ⟨same, position⟩ := behind.each i later
      exact ⟨same, Nat.le_of_succ_le position⟩
  · refine List.pairwise_append.mpr ⟨ordered, behind.ordered, fun i first j later => .inr ?_⟩
    obtain ⟨rule, position⟩ := here i first
    obtain ⟨rule', position'⟩ := behind.each j later
    exact ⟨rule.trans rule'.symm, .inl (position ▸ position')⟩

theorem endpoint_issues_placed (position : Nat) (joins : List Join) :
    Placed 3 position (endpointIssues position joins) := by
  induction joins generalizing position with
  | nil => exact placed_nil 3 position
  | cons j rest ih =>
      refine placed_entry _ _ _ _ ?_ ?_ (ih (position + 1)) <;> cases j.isComplete <;> simp [Issue.rule, Issue.position]

theorem computed_issues_placed (position : Nat) (computed : List ComputedColumn) :
    Placed 6 position (computedIssues position computed) := by
  induction computed generalizing position with
  | nil => exact placed_nil 6 position
  | cons c rest ih =>
      refine placed_entry _ _ _ _ ?_ ?_ (ih (position + 1)) <;>
        by_cases expression : c.expression = "" <;> by_cases asName : c.asName = "" <;>
          simp [expression, asName, Issue.Before, Issue.rule, Issue.position, Issue.part]

theorem alias_issues_placed (position : Nat) (used : List String) (computed : List ComputedColumn) :
    Placed 7 position (aliasIssues position used computed) := by
  induction computed generalizing position used with
  | nil => exact placed_nil 7 position
  | cons c rest ih =>
      rw [aliasIssues]
      split
      · exact placed_entry 7 position [] _ nofun .nil (ih (position + 1) used)
      · refine placed_entry _ _ _ _ ?_ ?_ (ih (position + 1) _) <;> split <;> simp [Issue.rule, Issue.position]

theorem attachment_issues_placed (position : Nat) (joins : List Join) (sources : List Source) :
    Placed 8 position (attachmentIssues position joins sources) := by
  induction joins generalizing position sources with
  | nil => exact placed_nil 8 position
  | cons j joins ih =>
      cases sources with
      | nil =>
          exact placed_entry 8 position [.joinWithoutTable position] _ (by simp [Issue.rule, Issue.position])
            (List.pairwise_singleton _ _) (ih (position + 1) [])
      | cons s rest =>
          refine placed_entry _ _ _ _ ?_ ?_ (ih (position + 1) rest) <;> cases s.isNamed <;>
            simp [Issue.rule, Issue.position]

-- A rule about the query as a whole reports one issue or none.
theorem placed_single (rule : Nat) (p : Prop) [Decidable p] (i : Issue) (same : i.rule = rule) :
    Placed rule 0 (if p then [i] else []) := by
  constructor <;> split <;> simp [same]

-- The rules up to a number have been checked.
structure Checked (rule : Nat) (issues : List Issue) : Prop where
  each : ∀ i ∈ issues, i.rule ≤ rule
  ordered : issues.Pairwise Issue.Before

theorem checked_append (rule start : Nat) (front back : List Issue) (checked : Checked rule front)
    (placed : Placed (rule + 1) start back) : Checked (rule + 1) (front ++ back) := by
  constructor
  · intro i member
    rcases List.mem_append.mp member with earlier | last
    · exact Nat.le_succ_of_le (checked.each i earlier)
    · exact Nat.le_of_eq (placed.each i last).1
  · refine List.pairwise_append.mpr ⟨checked.ordered, placed.ordered, fun i earlier j last => .inl ?_⟩
    rw [(placed.each j last).1]
    exact Nat.lt_succ_of_le (checked.each i earlier)

theorem issues_checked (q : Query) : Checked 8 q.issues := by
  have table : Placed 1 0 q.tableIssues := by
    unfold tableIssues
    split
    · exact placed_nil 1 0
    · exact placed_single 1 True .noTable rfl
  have first := checked_append 0 0 [] q.tableIssues ⟨nofun, .nil⟩ table
  have second := checked_append 1 0 _ q.alignmentIssues first (placed_single 2 _ _ rfl)
  have third := checked_append 2 1 _ _ second (endpoint_issues_placed 1 q.joins)
  have fourth := checked_append 3 0 _ q.projectionIssues third (placed_single 4 _ _ rfl)
  have fifth := checked_append 4 0 _ q.groupingIssues fourth (placed_single 5 _ _ rfl)
  have sixth := checked_append 5 1 _ _ fifth (computed_issues_placed 1 q.computed)
  have seventh := checked_append 6 1 _ _ sixth
    (alias_issues_placed 1 (q.selected.filterMap SelectedColumn.asName) q.computed)
  exact checked_append 7 1 _ _ seventh (attachment_issues_placed 1 q.joins (q.sources.drop 1))

/-- The issues are those whose rule is broken, each reported once, in the order of the rules and positions. -/
theorem issues_exact (q : Query) :
    q.issues.Nodup ∧ q.issues.Pairwise Issue.Before ∧ ∀ i, i ∈ q.issues ↔ q.Breaks i := by
  have ordered := (issues_checked q).ordered
  refine ⟨ordered.imp ?_, ordered, mem_issues q⟩
  rintro i j before rfl
  exact i.before_irrefl before

end Query
end QueryDraft
