import QueryDraft.Proofs.IssueRules
import QueryDraft.Proofs.KnownSources

/-!
The columns the pickers offer, and the names under which a statement knows their tables. A table without an
alias is offered under the name its catalog entry has, and stands in the statement under the name it was given
when it was picked or renamed.
-/

set_option autoImplicit false

namespace QueryDraft

namespace Candidate

-- What is offered belongs to a table that is picked, and has the name that this table's columns go by.
def Usable (q : Query) (c : Candidate) : Prop :=
  ∃ s, q.sources[c.position]? = some s ∧ s.isPicked = true ∧ c.visibleName = s.visibleName

theorem mem_of_source (catalog : Catalog) (position : Nat) (s : Source) (c : Candidate) :
    c ∈ ofSource catalog position s ↔
      ∃ entry, catalog.table? s.id = some entry ∧
        ∃ column ∈ entry.columns, c = ⟨entry.name, s.asName.getD entry.name, position, column⟩ := by
  unfold ofSource
  cases catalog.table? s.id with
  | none => simp
  | some entry => simp [eq_comm]

theorem mem_collect (catalog : Catalog) (position : Nat) (sources : List Source) (c : Candidate) :
    c ∈ collect catalog position sources ↔ ∃ n s, sources[n]? = some s ∧ c ∈ ofSource catalog (position + n) s := by
  induction sources generalizing position with
  | nil => simp [collect]
  | cons s rest ih =>
      rw [collect, List.mem_append, ih, Query.exists_entry_cons fun n s => c ∈ ofSource catalog (position + n) s]
      simp only [Nat.add_zero, Nat.add_assoc, Nat.add_comm 1]

end Candidate

-- A table is picked and, unless it has an alias, named as its catalog names it now.
def Source.InStep (entry : TableEntry) (s : Source) : Prop := s.id ≠ "" ∧ (s.asName = none → s.name = entry.name)

theorem Source.same_name_iff (entry : TableEntry) (s : Source) :
    s.asName.getD entry.name = s.visibleName ↔ (s.asName = none → s.name = entry.name) := by
  unfold Source.visibleName
  cases s.asName with
  | none => simp [eq_comm]
  | some asName => simp

-- How a table stands behind FROM or JOIN: its columns go by the last word.
theorem Source.text_visible (s : Source) :
    s.text s.name = if s.asName.isSome then s.name ++ " AS " ++ s.visibleName else s.visibleName := by
  unfold Source.text Source.visibleName
  cases s.asName <;> rfl

namespace Query

theorem usable_iff (catalog : Catalog) (q : Query) :
    (∀ c ∈ q.candidates catalog, c.Usable q) ↔
      ∀ s ∈ q.sources, ∀ entry, catalog.table? s.id = some entry → entry.columns ≠ [] → s.InStep entry := by
  constructor
  · intro usable s member entry known columns
    obtain ⟨n, found⟩ := List.mem_iff_getElem?.mp member
    obtain ⟨column, listed⟩ := List.exists_mem_of_ne_nil _ columns
    have offered : ⟨entry.name, s.asName.getD entry.name, n, column⟩ ∈ q.candidates catalog := by
      refine (Candidate.mem_collect catalog 0 q.sources _).mpr ⟨n, s, found, ?_⟩
      exact (Candidate.mem_of_source catalog _ s _).mpr ⟨entry, known, column, listed, by rw [Nat.zero_add]⟩
    obtain ⟨t, here, picked, same⟩ := usable _ offered
    obtain rfl : s = t := Option.some.inj (found.symm.trans here)
    exact ⟨by simpa [Source.isPicked] using picked, (s.same_name_iff entry).mp same⟩
  · intro inStep c offered
    obtain ⟨n, s, found, member⟩ := (Candidate.mem_collect catalog 0 q.sources c).mp offered
    obtain ⟨entry, known, column, listed, rfl⟩ := (Candidate.mem_of_source catalog _ s c).mp member
    obtain ⟨picked, same⟩ := inStep s (List.mem_of_getElem? found) entry known (List.ne_nil_of_mem listed)
    exact ⟨s, by simpa using found, by simpa [Source.isPicked] using picked, (s.same_name_iff entry).mpr same⟩

theorem in_step_of_resolved (catalog : Catalog) (s : Source) (entry : TableEntry) (resolved : s.Resolved catalog)
    (known : catalog.table? s.id = some entry) (anonymous : catalog.table? "" = none) : s.InStep entry := by
  have picked : s.id ≠ "" := by
    intro unset
    rw [unset, anonymous] at known
    cases known
  have given : s.name = catalog.nameOf s.id := resolved.resolve_left fun unset => picked unset.1
  refine ⟨picked, fun _ => ?_⟩
  rw [given, Catalog.nameOf, known]
  rfl

end Query

namespace Session

/-- All that is offered can be used exactly if every table with columns in the catalog is picked and, unless it
has an alias, has its name from the catalog. What can be used is named as the line of its table shows it. As
long as no table is renamed and no table of the catalog has the empty id, all that is offered can be used. -/
theorem candidates_usable (s : Session) :
    ((∀ c ∈ s.candidates, c.Usable s.query) ↔
      ∀ t ∈ s.query.sources, ∀ entry, s.catalog.table? t.id = some entry → entry.columns ≠ [] → t.InStep entry) ∧
      (s.query.issues = [] → ∀ c ∈ s.candidates, c.Usable s.query →
        ∃ visible text line, c.qualifiedName = visible ++ "." ++ c.column.name ∧
          (text = visible ∨ ∃ name, text = name ++ " AS " ++ visible) ∧
          s.query.sourceLine? text c.position = some line ∧ s.query.clauseLines[c.position + 1]? = some line) ∧
      ∀ actions, (∀ a ∈ actions, a.asEdit.renames = false) → (∀ t ∈ s.query.sources, t.Resolved s.catalog) →
        s.catalog.table? "" = none → ∀ c ∈ (s.run actions).candidates, c.Usable (s.run actions).query := by
  refine ⟨Query.usable_iff s.catalog s.query, ?_, ?_⟩
  · rintro valid c - ⟨t, found, -, same⟩
    obtain ⟨line, shown, stands⟩ := s.query.source_line_shown (Query.paired_of_valid _ valid) c.position t found
    refine ⟨c.visibleName, t.text t.name, line, rfl, ?_, shown, stands⟩
    rw [t.text_visible, same]
    split
    · exact .inr ⟨t.name, rfl⟩
    · exact .inl rfl
  · intro actions kept resolved anonymous
    rw [s.run_eq actions]
    refine (Query.usable_iff s.catalog _).mpr fun t member entry known _ => ?_
    have edits : ∀ e ∈ actions.map Action.asEdit, e.renames = false := List.forall_mem_map.mpr kept
    exact Query.in_step_of_resolved s.catalog t entry
      (Query.resolved_after_run s.catalog s.query _ edits resolved t member) known anonymous

theorem candidates_usable_example :
    let catalog : Catalog := (Roster.empty.put ⟨"t_users", "users", [⟨"id", "integer"⟩]⟩).put
      ⟨"t_orders", "orders", [⟨"user_id", "integer"⟩]⟩
    let actions : List Action :=
      [.editTable 0 (.pick "t_users"), .editTable 0 (.asName "u"), .addTable, .editTable 1 (.pick "t_orders")].map
        Action.edit
    let s := (start catalog .standard).1.run actions
    (∀ a ∈ actions, a.asEdit.renames = false) ∧
      s.candidates.map Candidate.qualifiedName = ["u.id", "orders.user_id"] ∧ ∀ c ∈ s.candidates, c.Usable s.query := by
  intro catalog actions s
  have kept : ∀ a ∈ actions, a.asEdit.renames = false := by decide
  obtain ⟨-, -, usable⟩ := candidates_usable (start catalog .standard).1
  exact ⟨kept, by decide, usable actions kept (List.forall_mem_singleton.mpr (.inl ⟨rfl, rfl⟩)) rfl⟩

-- A renamed table is offered under its old name, and a table that nobody picked under the empty id.
theorem candidates_misnamed :
    let catalog : Catalog := (Roster.empty.put ⟨"t_users", "users", [⟨"id", "integer"⟩]⟩).put ⟨"", "void", [⟨"x", ""⟩]⟩
    let edits : List Edit :=
      [.editTable 0 (.pick "t_users"), .editTable 0 (.rename "people"), .toggleColumn (.plain "users.id" "integer")]
    let renamed := (start catalog .standard).1.run (edits.map Action.edit)
    let unpicked := (start catalog .standard).1
    (∃ c ∈ renamed.candidates, c.qualifiedName = "users.id" ∧ ¬ c.Usable renamed.query) ∧
      renamed.recompile.1.sql = "SELECT users.id\nFROM people;" ∧
      ∃ c ∈ unpicked.candidates, c.qualifiedName = "void.x" ∧ ¬ c.Usable unpicked.query := by
  intro catalog edits renamed unpicked
  refine ⟨⟨⟨"users", "users", 0, ⟨"id", "integer"⟩⟩, by decide, by decide, ?_⟩, by decide +kernel,
    ⟨"void", "void", 0, ⟨"x", ""⟩⟩, by decide, by decide, ?_⟩
  · rintro ⟨s, found, -, same⟩
    obtain rfl : ⟨"t_users", "people", none⟩ = s := Option.some.inj found
    exact absurd same (by decide)
  · rintro ⟨s, found, picked, -⟩
    obtain rfl : Source.blank = s := Option.some.inj found
    cases picked

end Session
end QueryDraft
