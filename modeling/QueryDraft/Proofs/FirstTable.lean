import QueryDraft.Proofs.Compilation
import QueryDraft.Proofs.IssueRules
import QueryDraft.Query.Edit

/-!
Removing the first table. The joins stay, each one position before the table it was made for, and what
refuses them there is that they no longer line up with the tables. One drift escapes: where the last
table still waits for its join, joins and tables line up after the removal, and every join is compiled
with the table behind the one it was made for.
-/

set_option autoImplicit false

namespace QueryDraft

namespace Query

-- One table waits for its join, and nothing else is wrong, save perhaps with the table that is removed.
structure Slides (q : Query) : Prop where
  counts : q.sources.length = q.joins.length + 2
  named : ∀ s ∈ q.sources.drop 1, s.isNamed = true
  issues : ∀ i ∈ q.issues, i = .noTable ∨ i = .missingJoins

theorem remove_first (q : Query) : q.removeTable 0 = { q with sources := q.sources.drop 1 } := by
  obtain ⟨sources⟩ := q
  cases sources <;> rfl

-- The other rules do not look at the tables.
theorem breaks_sources (q : Query) (sources : List Source) (i : Issue)
    (apart : i ≠ .noTable ∧ i ≠ .missingJoins ∧ ∀ k, i ≠ .joinWithoutTable k) :
    ({ q with sources } : Query).Breaks i ↔ q.Breaks i := by
  cases i with
  | noTable => exact absurd rfl apart.1
  | missingJoins => exact absurd rfl apart.2.1
  | joinWithoutTable k => exact absurd rfl (apart.2.2 k)
  | _ => exact Iff.rfl

theorem table_present (q : Query) (idx : Nat) (inside : idx < q.sources.length)
    (named : ∀ s ∈ q.sources.drop idx, s.isNamed = true) : ¬ q.TableLacks idx := by
  intro lacks
  have member : q.sources[idx] ∈ q.sources.drop idx := by
    rw [List.drop_eq_getElem_cons inside]
    exact List.mem_cons_self
  have unnamed := (not_named_iff _).mpr (lacks q.sources[idx] (List.getElem?_eq_getElem inside))
  rw [named _ member] at unnamed
  cases unnamed

theorem slides_of_valid (q : Query) (valid : (q.removeTable 0).issues = []) : q.Slides := by
  have holds := (issues_nil _).mp valid
  obtain ⟨named, counts, -⟩ := paired_of_valid _ valid
  rw [remove_first] at holds named counts
  simp only [List.length_drop] at counts
  have length : q.sources.length = q.joins.length + 2 := by omega
  refine ⟨length, named, fun i member => ?_⟩
  have broken := (mem_issues q i).mp member
  cases i with
  | noTable => exact .inl rfl
  | missingJoins => exact .inr rfl
  | joinWithoutTable k =>
      obtain ⟨j, ⟨positive, found⟩, lacks⟩ := broken
      obtain ⟨inside, -⟩ := List.getElem?_eq_some_iff.mp found
      refine absurd lacks (table_present q k (by omega) fun s behind => named s ?_)
      exact List.drop_subset_drop_left q.sources (Nat.one_le_iff_ne_zero.mpr positive) behind
  | _ => exact absurd ((breaks_sources q _ _ (by simp)).mpr broken) (holds _)

theorem valid_of_slides (q : Query) (slides : q.Slides) : (q.removeTable 0).issues = [] := by
  obtain ⟨counts, named, known⟩ := slides
  have present : ∀ idx, idx ≤ q.joins.length → ¬ (q.removeTable 0).TableLacks idx := by
    intro idx inside
    rw [remove_first]
    refine table_present _ idx (by simp only [List.length_drop]; omega) fun s behind => named s ?_
    exact List.mem_of_mem_drop behind
  rw [issues_nil]
  intro i broken
  cases i with
  | noTable => exact present 0 (Nat.zero_le _) broken
  | missingJoins =>
      rw [remove_first] at broken
      simp only [Breaks, List.length_drop] at broken
      omega
  | joinWithoutTable k =>
      obtain ⟨j, ⟨positive, found⟩, lacks⟩ := broken
      rw [remove_first] at found
      obtain ⟨inside, -⟩ := List.getElem?_eq_some_iff.mp found
      exact present k (by simp only at inside; omega) lacks
  | _ =>
      rw [remove_first] at broken
      have own := known _ ((mem_issues q _).mpr ((breaks_sources q _ _ (by simp)).mp broken))
      simp at own

theorem removed_valid_iff (q : Query) : (q.removeTable 0).issues = [] ↔ q.Slides :=
  ⟨slides_of_valid q, valid_of_slides q⟩

theorem removed_join_lines (q : Query) (slides : q.Slides) :
    joinClauses 1 (q.removeTable 0).joins ((q.removeTable 0).sources.drop 1) =
      .ok (List.zipWith (fun j s => j.item (s.text s.name)) q.joins (q.sources.drop 2)) := by
  have counts := slides.counts
  rw [remove_first, List.drop_drop]
  refine join_clauses_of_named 1 q.joins (q.sources.drop 2) (by simp only [List.length_drop]; omega) fun s behind => ?_
  exact slides.named s (List.drop_subset_drop_left q.sources (by omega) behind)

/-- Without its first table a query is refused, unless it slides: then it compiles, with every join attaching
the table behind the one it was made for. -/
theorem first_table_removed (q : Query) :
    ((q.removeTable 0).issues ≠ [] ↔ ¬ q.Slides) ∧
      (∀ settings, (q.removeTable 0).statement settings = "" ↔ ¬ q.Slides) ∧
      (q.Slides → joinClauses 1 (q.removeTable 0).joins ((q.removeTable 0).sources.drop 1) =
        .ok (List.zipWith (fun j s => j.item (s.text s.name)) q.joins (q.sources.drop 2))) := by
  refine ⟨not_congr (removed_valid_iff q), fun settings => ?_, removed_join_lines q⟩
  rw [← removed_valid_iff]
  by_cases valid : (q.removeTable 0).issues = []
  · simp [statement_of_valid settings _ valid, valid]
  · simp [statement_of_issues settings _ valid, valid]

-- Users and their orders are joined; the items still wait for their join.
def waitingItems : Query :=
  { empty with
    sources := [⟨"t_users", "users", none⟩, ⟨"t_orders", "orders", none⟩, ⟨"t_items", "items", none⟩]
    joins := [⟨.inner, "users.id", .eq, "orders.user_id"⟩]
    columns := Roster.empty.put ("items.id", .plain "items.id" "integer") }

-- The join of users and orders is compiled as a join of orders and items.
theorem first_table_removed_unnoticed :
    waitingItems.issues = [.missingJoins] ∧ (waitingItems.removeTable 0).alignment = .aligned ∧
      (waitingItems.removeTable 0).issues = [] ∧
      (waitingItems.removeTable 0).statement .standard =
        "SELECT items.id\nFROM orders\nINNER JOIN items ON users.id = orders.user_id;" := by
  refine ⟨by decide, by decide, by decide, by decide⟩

end Query
end QueryDraft
