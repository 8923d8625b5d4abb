import QueryDraft.Proofs.ClauseLines
import QueryDraft.Proofs.IssueRules

/-!
The plan of a query beside its statement. Plan and statement ask for a clause by different tests; for a
query without issues they agree on which clauses there are, unfinished filters and a lone OFFSET apart.
-/

set_option autoImplicit false

namespace QueryDraft

/-! ## Lines of a stage -/

def emitted (lines : List String) (stage : Stage) : Nat := lines.countP fun line => Stage.ofLine? line = some stage

theorem emitted_of_opens (layout : List (Stage × String)) (opens : ∀ entry ∈ layout, entry.1.Opens entry.2)
    (stage : Stage) : emitted (layout.map Prod.snd) stage = (layout.map Prod.fst).count stage := by
  rw [emitted, List.countP_map, List.count, List.countP_map]
  refine List.countP_congr fun entry member => ?_
  simp [Stage.of_line_opens _ _ (opens entry member)]

namespace Query

def Enabled (q : Query) (stage : Stage) : Prop := ∃ row ∈ q.plan, row.stage = stage ∧ row.enabled = true

variable (q : Query)

-- How many lines each stage has. Only joins have more than one.
theorem emitted_lines (paired : q.Paired) (stage : Stage) :
    emitted q.clauseLines stage =
      match stage with
      | .source | .select => 1
      | .join => q.joins.length
      | .filter => if q.filters.any Filter.isRenderable then 1 else 0
      | .groupBy => if q.grouping.items ≠ [] then 1 else 0
      | .having => if q.groupFilters.any GroupFilter.isRenderable then 1 else 0
      | .orderBy => if q.sorting.any fun t => t.key?.isSome then 1 else 0
      | .limit => if q.limit.isSome then 1 else 0 := by
  rw [← q.layout_lines, emitted_of_opens _ q.layout_opens, q.layout_stages paired]
  simp only [stages, List.count_append, apply_ite (List.count stage), List.count_replicate]
  cases stage <;> simp

theorem filter_emitted (paired : q.Paired) :
    emitted q.clauseLines .filter ≠ 0 ↔ ∃ f ∈ q.filters, f.isRenderable = true := by
  rw [emitted_lines q paired]
  simp

theorem having_emitted (paired : q.Paired) :
    emitted q.clauseLines .having ≠ 0 ↔ ∃ f ∈ q.groupFilters, f.isRenderable = true := by
  rw [emitted_lines q paired]
  simp

theorem limit_emitted (paired : q.Paired) : emitted q.clauseLines .limit ≠ 0 ↔ q.limit ≠ none := by
  rw [emitted_lines q paired]
  simp

/-! ## Rows of the plan -/

theorem plan_rows :
    q.plan = Stage.all.map fun stage => ⟨stage, (q.summary? stage).isSome, (q.summary? stage).getD stage.idle⟩ := by
  refine List.map_congr_left fun stage _ => ?_
  cases q.summary? stage <;> rfl

theorem mem_plan (row : PlanRow) :
    row ∈ q.plan ↔
      row.enabled = (q.summary? row.stage).isSome ∧ row.summary = (q.summary? row.stage).getD row.stage.idle := by
  have known : ∀ stage, stage ∈ Stage.all := by
    intro stage
    cases stage <;> decide
  rw [plan_rows, List.mem_map]
  constructor
  · rintro ⟨stage, -, rfl⟩
    exact ⟨rfl, rfl⟩
  · rintro ⟨enabled, summary⟩
    exact ⟨row.stage, known _, by rw [← enabled, ← summary]⟩

theorem enabled_iff (stage : Stage) : q.Enabled stage ↔ q.summary? stage ≠ none := by
  rw [← Option.isSome_iff_ne_none]
  constructor
  · rintro ⟨row, member, rfl, enabled⟩
    rw [← ((q.mem_plan row).mp member).1, enabled]
  · intro present
    exact ⟨⟨stage, true, (q.summary? stage).getD stage.idle⟩, (q.mem_plan _).mpr ⟨present.symm, rfl⟩, rfl, rfl⟩

theorem source_enabled : q.Enabled .source ↔ ∃ s ∈ q.sources, s.id ≠ "" := by
  rw [enabled_iff]
  simp [summary?, Source.isPicked]

theorem filter_enabled : q.Enabled .filter ↔ ∃ f ∈ q.filters, f.hasSubject = true := by
  rw [enabled_iff]
  simp [summary?]

theorem having_enabled : q.Enabled .having ↔ ∃ f ∈ q.groupFilters, f.hasSubject = true := by
  rw [enabled_iff]
  simp [summary?]

theorem group_by_enabled : q.Enabled .groupBy ↔ q.grouping.items ≠ [] := by
  rw [enabled_iff]
  simp [summary?]

theorem order_by_enabled : q.Enabled .orderBy ↔ ∃ t ∈ q.sorting, t.key?.isSome = true := by
  rw [enabled_iff]
  simp [summary?, Option.isSome_iff_ne_none]

theorem limit_enabled : q.Enabled .limit ↔ q.limit ≠ none ∨ q.offset ≠ none := by
  rw [enabled_iff, summary?]
  cases q.limit <;> cases q.offset <;> simp

theorem select_enabled : q.Enabled .select ↔ q.columns.items ≠ [] ∨ q.computed ≠ [] := by
  rw [enabled_iff]
  cases columns : q.columns.items <;> simp [summary?, columns]

theorem label_of_named (s : Source) (named : s.isNamed = true) : s.label = s.text s.name := by
  rw [Source.label, if_neg (name_of_named s named)]

theorem join_labels_of_named (joins : List Join) (sources : List Source) (counts : sources.length = joins.length)
    (complete : ∀ j ∈ joins, j.isComplete = true) (named : ∀ s ∈ sources, s.isNamed = true) :
    joinLabels joins sources = List.zipWith (fun j s => j.kind.text ++ " " ++ s.text s.name) joins sources := by
  induction joins generalizing sources with
  | nil => rfl
  | cons j joins ih =>
      cases sources with
      | nil => simp at counts
      | cons s rest =>
          obtain ⟨finished, others⟩ := List.forall_mem_cons.mp complete
          obtain ⟨picked, behind⟩ := List.forall_mem_cons.mp named
          have tail := ih rest (by simpa using counts) others behind
          simp [joinLabels, finished, label_of_named s picked, tail]

theorem join_summary (paired : q.Paired) :
    q.summary? .join =
      if q.joins = [] then none
      else some (counted q.joins.length "join" "joins" ++ ": " ++
        ", ".intercalate (List.zipWith (fun j s => j.kind.text ++ " " ++ s.text s.name) q.joins (q.sources.drop 1))) := by
  have counts : (q.sources.drop 1).length = q.joins.length := by
    rw [List.length_drop, paired.counts, Nat.add_sub_cancel]
  have labels := join_labels_of_named q.joins (q.sources.drop 1) counts paired.complete
    fun s behind => paired.named s (List.mem_of_mem_drop behind)
  simp only [summary?, labels, List.length_zipWith, counts, Nat.min_self]
  refine if_congr ?_ rfl rfl
  rw [List.isEmpty_iff_length_eq_zero, List.length_zipWith, counts, Nat.min_self, List.length_eq_zero_iff]

theorem trailer_present (settings : Settings) :
    q.trailer settings ≠ "" ↔ q.limit = none ∧ q.offset ≠ none ∧ settings.loneOffset = true := by
  unfold trailer
  cases q.limit <;> cases q.offset <;> cases settings.loneOffset <;> simp

theorem has_subject (f : Filter) (shown : f.isRenderable = true) : f.hasSubject = true :=
  (Bool.and_eq_true_iff.mp shown).1

theorem group_has_subject (f : GroupFilter) (shown : f.isRenderable = true) : f.hasSubject = true :=
  (Bool.and_eq_true_iff.mp shown).1

theorem source_enabled_of_paired (paired : q.Paired) : q.Enabled .source := by
  obtain ⟨driving, rest, sources, -⟩ := paired.driving
  have among : driving ∈ q.sources := by rw [sources]; exact List.mem_cons_self
  have named := paired.named driving among
  exact q.source_enabled.mpr
    ⟨driving, among, fun empty => by simp [(not_named_iff driving).mpr (.inl empty)] at named⟩

theorem select_enabled_of_valid (valid : q.issues = []) : q.Enabled .select := by
  have projected : Issue.emptyProjection ∉ q.issues := by simp [valid]
  rw [mem_issues] at projected
  rwa [select_enabled, ← not_and_or]

/-! ## Agreement -/

-- A stage that renders some of the entries the plan counts: where it renders all of them, the two agree.
theorem entries_agree {α : Type} {enabled present : Prop} (entries : List α) (counts renders : α → Bool)
    (rendered : ∀ a, renders a = true → counts a = true) (emits : present ↔ ∃ a ∈ entries, renders a = true)
    (enables : enabled ↔ ∃ a ∈ entries, counts a = true) :
    (present → enabled) ∧ ((∀ a ∈ entries, counts a = true → renders a = true) → enabled → present) := by
  rw [emits, enables]
  constructor
  · rintro ⟨a, member, shown⟩
    exact ⟨a, member, rendered a shown⟩
  · rintro every ⟨a, member, inside⟩
    exact ⟨a, member, every a member inside⟩

structure PlanAgrees (settings : Settings) (q : Query) (lines : List String) : Prop where
  source : q.Enabled .source ∧ emitted lines .source = 1
  select : q.Enabled .select ∧ emitted lines .select = 1
  join : q.Enabled .join ↔ emitted lines .join ≠ 0
  joinCount : ∀ row ∈ q.plan, row.stage = .join → row.enabled = true →
    row.summary = counted (emitted lines .join) "join" "joins" ++ ": " ++
      ", ".intercalate (List.zipWith (fun j s => j.kind.text ++ " " ++ s.text s.name) q.joins (q.sources.drop 1))
  groupBy : q.Enabled .groupBy ↔ emitted lines .groupBy ≠ 0
  orderBy : q.Enabled .orderBy ↔ emitted lines .orderBy ≠ 0
  filter : emitted lines .filter ≠ 0 → q.Enabled .filter
  everyFilter : (∀ f ∈ q.filters, f.hasSubject = true → f.isRenderable = true) →
    q.Enabled .filter → emitted lines .filter ≠ 0
  having : emitted lines .having ≠ 0 → q.Enabled .having
  everyHaving : (∀ f ∈ q.groupFilters, f.hasSubject = true → f.isRenderable = true) →
    q.Enabled .having → emitted lines .having ≠ 0
  limit : emitted lines .limit ≠ 0 ∨ q.trailer settings ≠ "" → q.Enabled .limit
  everyLimit : settings.loneOffset = true ∨ q.limit ≠ none →
    q.Enabled .limit → emitted lines .limit ≠ 0 ∨ q.trailer settings ≠ ""

/-- The plan of a query without issues enables the stages whose clauses the statement has. Beyond these it only
enables a filter stage whose filters are all unfinished, and the limit stage of an OFFSET the settings leave out. -/
theorem plan_agrees (settings : Settings) (valid : q.issues = []) :
    ∃ lines, q.lines = .ok lines ∧ q.compile settings = .ok ("\n".intercalate lines ++ q.trailer settings ++ ";") ∧
      q.PlanAgrees settings lines := by
  have paired := paired_of_valid q valid
  have shown := q.emitted_lines paired
  have filters := entries_agree q.filters _ _ has_subject (q.filter_emitted paired) q.filter_enabled
  have groupFilters := entries_agree q.groupFilters _ _ group_has_subject (q.having_emitted paired) q.having_enabled
  refine ⟨q.clauseLines, lines_of_paired q paired, compile_of_valid settings q valid, ?_⟩
  constructor
  case source => exact ⟨q.source_enabled_of_paired paired, shown .source⟩
  case select => exact ⟨q.select_enabled_of_valid valid, shown .select⟩
  case join =>
    rw [shown, enabled_iff, join_summary q paired]
    simp
  case joinCount =>
    intro row member join enabled
    obtain ⟨present, summary⟩ := (q.mem_plan row).mp member
    rw [enabled, join, join_summary q paired] at present
    rw [join, join_summary q paired] at summary
    have some : q.joins ≠ [] := by
      intro none
      simp [none] at present
    rw [summary, if_neg some, Option.getD_some, shown]
  case groupBy =>
    rw [shown, group_by_enabled]
    simp
  case orderBy =>
    rw [shown, order_by_enabled]
    simp [Option.isSome_iff_ne_none]
  case filter => exact filters.1
  case everyFilter => exact filters.2
  case having => exact groupFilters.1
  case everyHaving => exact groupFilters.2
  case limit =>
    rw [limit_emitted q paired, limit_enabled, trailer_present]
    rintro (limit | ⟨-, offset, -⟩)
    · exact .inl limit
    · exact .inr offset
  case everyLimit =>
    intro kept
    rw [limit_emitted q paired, limit_enabled, trailer_present]
    rintro (limit | offset)
    · exact .inl limit
    · by_cases limit : q.limit = none
      · exact .inr ⟨limit, offset, kept.resolve_right fun some => some limit⟩
      · exact .inl limit

theorem plan_agrees_example :
    spendings.issues = [] ∧ ∃ lines, spendings.lines = .ok lines ∧
      spendings.compile .standard = .ok ("\n".intercalate lines ++ spendings.trailer .standard ++ ";") ∧
      spendings.PlanAgrees .standard lines :=
  ⟨by decide, spendings.plan_agrees .standard (by decide)⟩

end Query
end QueryDraft
