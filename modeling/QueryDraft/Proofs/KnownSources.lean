import QueryDraft.Proofs.EditEffects
import QueryDraft.Proofs.Saving
import QueryDraft.Proofs.StatementLines

/-!
Sessions whose tables are picked from the catalog. As long as no table is renamed by hand, every table has
the name its catalog gives it, and a statement shows catalog tables only, each under that name.
-/

set_option autoImplicit false

namespace QueryDraft

/-! ## Runs of a session -/

-- What changes a session. Tables are looked up in its own catalog.
inductive Action where
  | edit (e : Edit)
  | reset
deriving DecidableEq

namespace Session

def act (s : Session) : Action → Session
  | .edit e => (s.edit e).1
  | .reset => s.reset.1

def run (s : Session) (actions : List Action) : Session := actions.foldl act s

end Session

def Action.asEdit : Action → Edit
  | .edit e => e
  | .reset => .reset

-- A session keeps its catalog and its settings, and its query goes through the edits.
theorem Session.run_eq (s : Session) (actions : List Action) :
    s.run actions = { s with query := s.query.applyAll s.catalog (actions.map Action.asEdit) } := by
  induction actions generalizing s with
  | nil => rfl
  | cons a rest ih =>
      have act : s.act a = { s with query := s.query.apply s.catalog a.asEdit } := by cases a <;> rfl
      rw [run, List.foldl_cons, ← run, ih, act]
      rfl

/-! ## Names from the catalog -/

-- A table is given a name by hand.
def Edit.renames : Edit → Bool
  | .editTable _ (.rename _) => true
  | _ => false

-- A table is not picked yet, or it has the name that the catalog gives for its id.
def Source.Resolved (catalog : Catalog) (s : Source) : Prop := s.id = "" ∧ s.name = "" ∨ s.name = catalog.nameOf s.id

theorem Catalog.name_of_present (catalog : Catalog) (id : String) (present : catalog.nameOf id ≠ "") :
    ∃ entry, catalog.table? id = some entry ∧ entry.name = catalog.nameOf id := by
  rw [nameOf] at present ⊢
  cases found : catalog.table? id with
  | none => exact absurd (by rw [found]; rfl) present
  | some entry => exact ⟨entry, rfl, rfl⟩

namespace Query

-- A table that can stand in a statement is one that the catalog knows.
theorem entry_of_named (catalog : Catalog) (s : Source) (resolved : s.Resolved catalog) (named : s.isNamed = true) :
    ∃ entry, catalog.table? s.id = some entry ∧ s.name = entry.name := by
  have present := name_of_named s named
  have given : s.name = catalog.nameOf s.id := resolved.resolve_left fun unset => present unset.2
  obtain ⟨entry, known, name⟩ := catalog.name_of_present s.id (given ▸ present)
  exact ⟨entry, known, given.trans name.symm⟩

theorem resolved_apply (catalog : Catalog) (q : Query) (e : Edit) (kept : e.renames = false)
    (resolved : ∀ s ∈ q.sources, s.Resolved catalog) : ∀ s ∈ (q.apply catalog e).sources, s.Resolved catalog := by
  intro s member
  rcases mem_sources_apply catalog q e s member with old | rfl | ⟨idx, change, old, rfl, known, rfl⟩
  · exact resolved s old
  · exact .inl ⟨rfl, rfl⟩
  · cases change with
    | pick id => exact .inr rfl
    | rename name => cases kept
    | asName text => exact resolved old known

theorem resolved_after_run (catalog : Catalog) (q : Query) (edits : List Edit) (kept : ∀ e ∈ edits, e.renames = false)
    (resolved : ∀ s ∈ q.sources, s.Resolved catalog) : ∀ s ∈ (q.applyAll catalog edits).sources, s.Resolved catalog := by
  rw [apply_all_run]
  refine run_keeps q (fun q => ∀ s ∈ q.sources, s.Resolved catalog) (fun used e => used = catalog ∧ e.renames = false)
    ?_ _ ?_ resolved
  · rintro _ q e ⟨rfl, plain⟩ holds
    exact resolved_apply _ q e plain holds
  · rw [List.forall_mem_map]
    exact fun e member => ⟨rfl, kept e member⟩

-- The line that shows a table: the first table stands behind FROM, every other one in its join.
def sourceLine? (q : Query) (source : String) : Nat → Option String
  | 0 => some ("FROM " ++ source)
  | i + 1 => q.joins[i]?.map fun j => j.item source

theorem source_line_shown (q : Query) (paired : q.Paired) (i : Nat) (s : Source) (found : q.sources[i]? = some s) :
    ∃ line, q.sourceLine? (s.text s.name) i = some line ∧ q.clauseLines[i + 1]? = some line := by
  cases i with
  | zero =>
      obtain ⟨driving, rest, sources, -⟩ := paired.driving
      obtain rfl : driving = s := by simpa [sources] using found
      exact ⟨_, rfl, by simp [clauseLines, sources]⟩
  | succ i =>
      obtain ⟨inside, -⟩ := List.getElem?_eq_some_iff.mp found
      have among : i < q.joins.length := by
        have counts := paired.counts
        omega
      have joined := List.getElem?_eq_getElem among
      obtain ⟨t, attached, line⟩ := q.layout_join paired i q.joins[i] joined
      obtain rfl : s = t := Option.some.inj (found.symm.trans attached)
      refine ⟨_, by rw [sourceLine?, joined]; rfl, ?_⟩
      rw [← q.layout_lines, List.getElem?_map, line]
      rfl

end Query

namespace Session

/-- In a session that starts afresh and renames no table, every table is unpicked or named by the catalog; and
once there is a statement, the catalog knows every table and the statement shows it under its catalog name. -/
theorem sources_known (catalog : Catalog) (settings : Settings) (actions : List Action)
    (kept : ∀ a ∈ actions, a.asEdit.renames = false) :
    let s := (start catalog settings).1.run actions
    (∀ t ∈ s.query.sources, t.Resolved catalog) ∧
      (s.recompile.1.sql ≠ "" → ∃ lines, s.query.lines = .ok lines ∧
        s.recompile.1.sql = "\n".intercalate lines ++ s.query.trailer settings ++ ";" ∧
        ∀ i t, s.query.sources[i]? = some t → ∃ entry, catalog.table? t.id = some entry ∧
          ∃ line, s.query.sourceLine? (t.text entry.name) i = some line ∧ lines[i + 1]? = some line) := by
  intro s
  have state := (start catalog settings).1.run_eq actions
  have query : s.query = Query.fresh.applyAll catalog (actions.map Action.asEdit) := congrArg Session.query state
  have same : s.settings = settings := congrArg Session.settings state
  have resolved : ∀ t ∈ s.query.sources, t.Resolved catalog := by
    rw [query]
    refine Query.resolved_after_run catalog .fresh _ ?_ (List.forall_mem_singleton.mpr (.inl ⟨rfl, rfl⟩))
    rwa [List.forall_mem_map]
  refine ⟨resolved, fun shown => ?_⟩
  rw [recompiled_sql] at shown ⊢
  have valid := s.statement_present.mp shown
  have paired := Query.paired_of_valid s.query valid
  refine ⟨s.query.clauseLines, Query.lines_of_paired s.query paired, ?_, fun i t found => ?_⟩
  · rw [s.query.statement_of_valid s.settings valid, same]
  · have member := List.mem_of_getElem? found
    obtain ⟨entry, known, name⟩ := Query.entry_of_named catalog t (resolved t member) (paired.named t member)
    exact ⟨entry, known, name ▸ s.query.source_line_shown paired i t found⟩

-- An unknown table is picked first, and the table behind it moves up when it goes.
theorem sources_known_example :
    let catalog : Catalog := (Roster.empty.put ⟨"t_users", "users", []⟩).put ⟨"t_orders", "orders", []⟩
    let actions : List Action :=
      [.editTable 0 (.pick "t_users"), .editTable 0 (.asName "u"), .addTable, .addTable, .editTable 1 (.pick "t_gone"),
        .editTable 2 (.pick "t_orders"), .editJoin 1 (.left "u.id"), .editJoin 1 (.right "orders.user_id"),
        .removeTable 1, .toggleColumn (.plain "u.id" "integer")].map Action.edit
    let s := (start catalog .standard).1.run actions
    (∀ a ∈ actions, a.asEdit.renames = false) ∧ s.recompile.1.sql =
        "SELECT u.id\nFROM users AS u\nINNER JOIN orders ON u.id = orders.user_id;" ∧
      (∀ t ∈ s.query.sources, t.Resolved catalog) ∧ ∃ lines, s.query.lines = .ok lines ∧
        s.recompile.1.sql = "\n".intercalate lines ++ s.query.trailer .standard ++ ";" ∧
        ∀ i t, s.query.sources[i]? = some t → ∃ entry, catalog.table? t.id = some entry ∧
          ∃ line, s.query.sourceLine? (t.text entry.name) i = some line ∧ lines[i + 1]? = some line := by
  intro catalog actions s
  have kept : ∀ a ∈ actions, a.asEdit.renames = false := by decide
  have sql : s.recompile.1.sql = "SELECT u.id\nFROM users AS u\nINNER JOIN orders ON u.id = orders.user_id;" := by
    decide +kernel
  obtain ⟨resolved, shown⟩ := sources_known catalog .standard actions kept
  exact ⟨kept, sql, resolved, shown (by rw [show _ = _ from sql]; decide)⟩

end Session
end QueryDraft
