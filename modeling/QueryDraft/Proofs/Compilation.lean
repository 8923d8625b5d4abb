import QueryDraft.Query.Statement

/-!
A query without issues compiles, and a query with issues fails with exactly these issues. What the
rules guarantee together is `Paired`: every table is named, and the joins attach the tables after the
first one, one each.
-/

set_option autoImplicit false

namespace QueryDraft

theorem Text.intercalate_last (separator : String) (front : List String) (last text : String) :
    separator.intercalate (front ++ [last ++ text]) = separator.intercalate (front ++ [last]) ++ text := by
  induction front with
  | nil => simp
  | cons line rest ih =>
      rw [List.cons_append, List.cons_append, String.intercalate_cons_of_ne_nil (by simp),
        String.intercalate_cons_of_ne_nil (by simp), ih, ← String.append_assoc]

namespace Query

structure Paired (q : Query) : Prop where
  named : ∀ s ∈ q.sources, s.isNamed = true
  counts : q.sources.length = q.joins.length + 1
  complete : ∀ j ∈ q.joins, j.isComplete = true

theorem Paired.driving (q : Query) (paired : q.Paired) :
    ∃ driving rest, q.sources = driving :: rest ∧ rest.length = q.joins.length := by
  obtain ⟨driving, rest, sources⟩ := List.exists_cons_of_length_eq_add_one paired.counts
  exact ⟨driving, rest, sources, by simpa [sources] using paired.counts⟩

theorem table_issues_nil (q : Query) :
    q.tableIssues = [] ↔ ∃ s rest, q.sources = s :: rest ∧ s.isNamed = true := by
  unfold tableIssues
  cases q.sources with
  | nil => simp
  | cons s rest => by_cases named : s.isNamed = true <;> simp [named]

theorem endpoint_issues_nil (position : Nat) (joins : List Join) :
    endpointIssues position joins = [] ↔ ∀ j ∈ joins, j.isComplete = true := by
  induction joins generalizing position with
  | nil => simp [endpointIssues]
  | cons j rest ih => by_cases complete : j.isComplete = true <;> simp [endpointIssues, complete, ih]

-- Without the alignment rule this bounds the joins from one side only: tables may still wait for one.
theorem attachment_issues_nil (position : Nat) (joins : List Join) (sources : List Source) :
    attachmentIssues position joins sources = [] ↔
      joins.length ≤ sources.length ∧ ∀ s ∈ sources.take joins.length, s.isNamed = true := by
  induction joins generalizing position sources with
  | nil => simp [attachmentIssues]
  | cons j joins ih =>
      cases sources with
      | nil => simp [attachmentIssues]
      | cons s rest => by_cases named : s.isNamed = true <;> simp [attachmentIssues, named, ih]

theorem alignment_issues_nil (q : Query) :
    q.alignmentIssues = [] ↔ (1 < q.sources.length → q.sources.length = q.joins.length + 1) := by
  have aligned := Alignment.is_aligned_iff q.sources.length q.joins.length
  rw [alignmentIssues, alignment, ite_eq_right_iff, Bool.not_eq_true', ← Bool.not_eq_true, aligned]
  simp only [List.cons_ne_nil, imp_false, not_and, Classical.not_not]
  exact forall_congr' fun several => by omega

theorem paired_of_valid (q : Query) (valid : q.issues = []) : q.Paired := by
  simp only [issues, List.append_eq_nil_iff] at valid
  obtain ⟨⟨⟨⟨⟨⟨⟨tables, alignment⟩, endpoints⟩, -⟩, -⟩, -⟩, -⟩, attachments⟩ := valid
  obtain ⟨driving, rest, sources, named⟩ := (table_issues_nil q).mp tables
  obtain ⟨bound, attached⟩ := (attachment_issues_nil _ _ _).mp attachments
  have aligned := (alignment_issues_nil q).mp alignment
  simp only [sources, List.drop_succ_cons, List.drop_zero, List.length_cons] at bound attached aligned
  have counts : rest.length = q.joins.length := by
    by_cases several : 1 < rest.length + 1
    · have := aligned several
      omega
    · omega
  refine ⟨?_, by rw [sources, List.length_cons, counts], (endpoint_issues_nil _ _).mp endpoints⟩
  rw [← counts, List.take_length] at attached
  simpa only [sources, List.forall_mem_cons] using And.intro named attached

theorem name_of_named (s : Source) (named : s.isNamed = true) : s.name ≠ "" := by
  simp only [Source.isNamed, Bool.and_eq_true, decide_eq_true_eq] at named
  exact named.2

theorem item_of_named (s : Source) (position : Nat) (named : s.isNamed = true) :
    s.item position = .ok (s.text s.name) := by
  rw [Source.item, if_neg (name_of_named s named)]

theorem join_clauses_of_named (position : Nat) (joins : List Join) (sources : List Source)
    (counts : sources.length = joins.length) (named : ∀ s ∈ sources, s.isNamed = true) :
    joinClauses position joins sources = .ok (List.zipWith (fun j s => j.item (s.text s.name)) joins sources) := by
  induction joins generalizing position sources with
  | nil => rfl
  | cons j joins ih =>
      cases sources with
      | nil => simp at counts
      | cons s rest =>
          have head := item_of_named s position (named s (by simp))
          have tail := ih (position + 1) rest (by simpa using counts) (fun s member => named s (by simp [member]))
          simp only [joinClauses, head, tail, List.zipWith_cons_cons, bind, Except.bind, pure, Except.pure]

-- The clauses as they stand once every table has a name.
def clauseLines (q : Query) : List String :=
  q.selectClause :: (q.sources.take 1).map (fun s => "FROM " ++ s.text s.name) ++
    List.zipWith (fun j s => j.item (s.text s.name)) q.joins (q.sources.drop 1) ++
    [clause? "WHERE" (whereBody q.filters), q.groupByClause?, clause? "HAVING" (havingBody q.groupFilters),
      orderByClause? q.sorting, q.limitClause?].filterMap id

theorem lines_of_paired (q : Query) (paired : q.Paired) : q.lines = .ok q.clauseLines := by
  obtain ⟨driving, rest, sources, counts⟩ := paired.driving
  have named := paired.named
  rw [sources] at named
  have source := item_of_named driving 0 (named driving (by simp))
  have joins := join_clauses_of_named 1 q.joins rest counts (fun s member => named s (by simp [member]))
  simp [lines, clauseLines, fromClause, sources, source, joins, bind, Except.bind, pure, Except.pure]

theorem push_last_concat (front : List String) (last text : String) :
    pushLast (front ++ [last]) text = front ++ [last ++ text] := by
  rw [pushLast, List.length_append, List.length_singleton, Nat.add_sub_cancel]
  induction front with
  | nil => rfl
  | cons line rest ih => exact congrArg (line :: ·) ih

-- There is a line to go on with, so that nothing is lost.
theorem push_last_joined (separator : String) (lines : List String) (some : lines ≠ []) (text : String) :
    separator.intercalate (pushLast lines text) = separator.intercalate lines ++ text := by
  rw [← List.dropLast_concat_getLast some, push_last_concat, Text.intercalate_last]

theorem compile_of_valid (settings : Settings) (q : Query) (valid : q.issues = []) :
    q.compile settings = .ok ("\n".intercalate q.clauseLines ++ q.trailer settings ++ ";") := by
  have passes : q.isValid = true := by simp [isValid, valid]
  have joined := push_last_joined "\n" q.clauseLines (List.cons_ne_nil _ _) (q.trailer settings)
  rw [compile, if_pos passes, lines_of_paired q (paired_of_valid q valid), ← joined]
  rfl

theorem compile_of_issues (settings : Settings) (q : Query) (broken : q.issues ≠ []) :
    q.compile settings = .error (.invalid q.issues) := by
  have fails : ¬ q.isValid = true := by simpa [isValid] using broken
  rw [compile, if_neg fails]

theorem statement_of_valid (settings : Settings) (q : Query) (valid : q.issues = []) :
    q.statement settings = "\n".intercalate q.clauseLines ++ q.trailer settings ++ ";" := by
  rw [statement, compile_of_valid settings q valid]

theorem statement_of_issues (settings : Settings) (q : Query) (broken : q.issues ≠ []) :
    q.statement settings = "" := by
  rw [statement, compile_of_issues settings q broken]

-- There is always a line behind the first one.
theorem statement_opens (settings : Settings) (q : Query) (valid : q.issues = []) :
    ∃ rest, q.statement settings = q.selectClause ++ "\n" ++ rest := by
  obtain ⟨driving, others, sources, -⟩ := (paired_of_valid q valid).driving
  have several : q.clauseLines.drop 1 ≠ [] := by
    simp [clauseLines, sources]
  have lines : "\n".intercalate q.clauseLines = q.selectClause ++ "\n" ++ "\n".intercalate (q.clauseLines.drop 1) :=
    String.intercalate_cons_of_ne_nil several
  rw [statement_of_valid settings q valid, lines]
  simp only [String.append_assoc]
  exact ⟨_, rfl⟩

theorem closed_ne_empty (text : String) : text ++ ";" ≠ "" := by
  intro empty
  have chars := congrArg String.toList empty
  simp at chars

/-- Checking and compiling agree: the only failure is a list of issues, and it is the one reported. -/
theorem compile_fails_by_issues (settings : Settings) (q : Query) :
    (q.issues = [] → ∃ text, q.compile settings = .ok text ∧ text ≠ "") ∧
      (q.issues ≠ [] → q.compile settings = .error (.invalid q.issues)) ∧
      (∀ failure, q.compile settings = .error failure → ∃ issues, failure = .invalid issues) ∧
      (q.statement settings = "" ↔ q.issues.map Issue.message ≠ []) := by
  refine ⟨fun valid => ⟨_, compile_of_valid settings q valid, closed_ne_empty _⟩,
    compile_of_issues settings q, ?_, ?_⟩
  · intro failure failed
    by_cases valid : q.issues = []
    · rw [compile_of_valid settings q valid] at failed
      cases failed
    · rw [compile_of_issues settings q valid] at failed
      cases failed
      exact ⟨q.issues, rfl⟩
  · by_cases valid : q.issues = []
    · simp [statement_of_valid settings q valid, valid]
    · simp [statement_of_issues settings q valid, valid]

end Query
end QueryDraft
