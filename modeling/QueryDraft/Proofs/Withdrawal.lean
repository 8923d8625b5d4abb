import QueryDraft.Proofs.IndependentEdits

/-!
Entries that are added and taken away again. What is set in an entry goes with it, so that the query is what it was
before, however the entry was edited in between; the join of a new table goes with the table.
-/

set_option autoImplicit false

namespace QueryDraft

theorem erase_last {α : Type} (items : List α) (a : α) : (items ++ [a]).eraseIdx items.length = items := by
  rw [List.eraseIdx_append_of_length_le (Nat.le_refl _), Nat.sub_self, List.eraseIdx_cons_zero, List.append_nil]

-- An edit that takes an entry away where there is one; a toggle adds it otherwise.
def Edit.Takes (e : Edit) (entry : Entry) : Prop :=
  e.removes? = some entry ∨ ∃ c, e = .toggleColumn c ∧ entry = .column c.name

namespace Query

variable (catalog other : Catalog) (q : Query) (e add remove : Edit) (entry : Entry) (slot : Slot)

/-! ## Edits of an entry that goes -/

theorem edit_table_removed (idx : Nat) (change : SourceEdit) :
    (q.editTable catalog idx change).removeTable idx = q.removeTable idx := by
  by_cases inside : idx < q.sources.length
  · have still : idx < (q.editTable catalog idx change).sources.length := by rwa [editTable, List.length_modify]
    rw [removeTable, if_pos still, removeTable, if_pos inside]
    dsimp only [editTable]
    rw [List.eraseIdx_modify_of_eq]
  · have same : q.editTable catalog idx change = q := q.apply_unneeded catalog (.editTable idx change) _ rfl inside
    rw [same]

theorem adjust_toggled (c : SelectedColumn) (f : KeyedColumn → KeyedColumn) (keeps : ∀ a, (f a).1 = a.1) :
    ({ q with columns := q.columns.adjust c.name f keeps } : Query).toggleColumn c = q.toggleColumn c := by
  by_cases selected : c.name ∈ q.columns.keys
  · have still : c.name ∈ (q.columns.adjust c.name f keeps).keys := by rwa [Roster.keys_adjust]
    rw [toggleColumn, if_pos ((Roster.has_iff _ _).mpr still), toggleColumn, if_pos ((Roster.has_iff _ _).mpr selected)]
    dsimp only
    rw [Roster.erase_adjust]
  · rw [Roster.adjust_absent q.columns c.name f keeps selected]

-- The join that attaches the table goes with it. Joins that had to be made for it would stay.
theorem edit_join_removed (idx : Nat) (change : JoinEdit) (inside : idx + 1 < q.sources.length)
    (filled : idx ≤ q.joins.length) : (q.editJoin idx change).removeTable (idx + 1) = q.removeTable (idx + 1) := by
  have made : (q.joins ++ List.replicate (idx + 1 - q.joins.length) Join.blank).eraseIdx idx = q.joins.eraseIdx idx := by
    by_cases present : idx < q.joins.length
    · rw [Nat.sub_eq_zero_of_le present, List.replicate_zero, List.append_nil]
    · have last : idx = q.joins.length := Nat.le_antisymm filled (Nat.le_of_not_lt present)
      rw [last, Nat.add_sub_cancel_left, List.replicate_one, erase_last, List.eraseIdx_of_length_le (Nat.le_refl _)]
  have removed : ∀ joins, ({ q with joins } : Query).removeTable (idx + 1) =
      { q with sources := q.sources.eraseIdx (idx + 1), joins := joins.eraseIdx idx } := fun joins =>
    remove_behind { q with joins } (idx + 1) (Nat.le_add_left 1 idx) inside
  rw [q.edit_join_made idx change (.inr inside), removed, List.eraseIdx_modify_of_eq, made]
  exact (removed q.joins).symm

theorem set_toggled (c : SelectedColumn) (sets : e.sets? = some (.column c.name, slot)) :
    (q.apply catalog e).toggleColumn c = q.toggleColumn c := by
  rcases e.sets_cases _ slot sets with ⟨aggregate, rfl, -⟩ | ⟨asName, rfl, -⟩
  · exact q.adjust_toggled c _ _
  · exact q.adjust_toggled c _ _

theorem set_removed (sets : e.sets? = some (entry, slot)) (takes : remove.Takes entry) :
    (q.apply catalog e).apply other remove = q.apply other remove := by
  obtain removes | ⟨c, rfl, rfl⟩ := takes
  · have edits := e.sets_cases entry slot sets
    cases remove with
    | removeTable idx =>
        cases removes
        obtain ⟨change, rfl, -⟩ := edits
        exact q.edit_table_removed catalog idx change
    | removeGrouping name =>
        cases removes
        exact edits.elim
    | removeComputed idx | removeFilter idx | removeGroupFilter idx | removeSort idx =>
        cases removes
        obtain ⟨change, rfl, -⟩ := edits
        dsimp only [apply]
        rw [List.eraseIdx_modify_of_eq]
    | _ => cases removes
  · exact q.set_toggled catalog e slot c sets

/-! ## Entries that are added -/

-- An edit that adds an entry, and the edit that takes this entry away again. A new entry of a list is its last one.
inductive Adds (q : Query) : Edit → Entry → Edit → Prop
  | table (attached : ∀ n, q.alignment ≠ .surplus n) :
      Adds q .addTable (.table q.sources.length) (.removeTable q.sources.length)
  | column (c again : SelectedColumn) (same : again.name = c.name) (unselected : c.name ∉ q.columns.keys) :
      Adds q (.toggleColumn c) (.column c.name) (.toggleColumn again)
  | computed : Adds q .addComputed (.computed q.computed.length) (.removeComputed q.computed.length)
  | filter : Adds q .addFilter (.filter q.filters.length) (.removeFilter q.filters.length)
  | grouped (name : String) (given : name ≠ "") (absent : name ∉ q.grouping.keys) :
      Adds q (.addGrouping name) (.grouped name) (.removeGrouping name)
  | groupFilter : Adds q .addGroupFilter (.groupFilter q.groupFilters.length) (.removeGroupFilter q.groupFilters.length)
  | sort : Adds q .addSort (.sort q.sorting.length) (.removeSort q.sorting.length)

theorem takes_of_adds (adds : q.Adds add entry remove) : remove.Takes entry := by
  cases adds with
  | column c again same => exact .inr ⟨again, rfl, congrArg Entry.column same.symm⟩
  | _ => exact .inl rfl

theorem joins_fit (attached : ∀ n, q.alignment ≠ .surplus n) : q.joins.length ≤ q.sources.length - 1 := by
  refine Nat.le_of_not_lt fun more => attached (q.joins.length - (q.sources.length - 1)) ?_
  rw [alignment, Alignment.of_counts_surplus]
  omega

theorem add_table_removed (attached : ∀ n, q.alignment ≠ .surplus n) : q.addTable.removeTable q.sources.length = q := by
  have inside : q.sources.length < q.addTable.sources.length := by
    rw [addTable, List.length_append]
    exact Nat.lt_succ_self _
  rw [removeTable, if_pos inside]
  dsimp only [addTable]
  rw [erase_last, List.eraseIdx_of_length_le (q.joins_fit attached), ite_self]

theorem toggle_toggled (c again : SelectedColumn) (same : again.name = c.name) (unselected : c.name ∉ q.columns.keys) :
    (q.toggleColumn c).toggleColumn again = q := by
  have unknown : ¬ q.columns.has c.name = true := mt (q.columns.has_iff c.name).mp unselected
  have selected : (q.columns.put (c.name, .plain c.name c.type)).has again.name = true := by
    rw [Roster.has_iff, same]
    exact (Roster.mem_keys_put _ _ _).mpr (.inr rfl)
  have first : q.toggleColumn c = { q with columns := q.columns.put (c.name, .plain c.name c.type) } := if_neg unknown
  rw [first, toggleColumn, if_pos selected, same]
  exact congrArg (fun columns => { q with columns }) (q.columns.erase_put (c.name, .plain c.name c.type) unselected)

theorem add_grouping_removed (name : String) (given : name ≠ "") (absent : name ∉ q.grouping.keys) :
    (q.addGrouping name).removeGrouping name = q := by
  rw [addGrouping, if_neg given, removeGrouping]
  exact congrArg (fun grouping => { q with grouping }) (q.grouping.erase_put name absent)

theorem added_removed (adds : q.Adds add entry remove) : (q.apply catalog add).apply other remove = q := by
  cases adds with
  | table attached => exact q.add_table_removed attached
  | column c again same unselected => exact q.toggle_toggled c again same unselected
  | grouped name given absent => exact q.add_grouping_removed name given absent
  | computed | filter | groupFilter | sort =>
      dsimp only [apply]
      rw [erase_last]

/-! ## Runs of edits in between -/

-- The edits that may stand in between: they set something in the new entry or, as long as all tables before a new
-- one have their joins, in the join of the new table.
def Concerns (q : Query) (entry : Entry) (e : Edit) : Prop :=
  (∃ slot, e.sets? = some (entry, slot)) ∨
    q.alignment = .aligned ∧ ∃ idx slot, entry = .table (idx + 1) ∧ e.sets? = some (.join idx, slot)

-- A query from which the entry is taken away as from another one, with as many tables and no fewer joins.
structure SameWithout (remove : Edit) (q r : Query) : Prop where
  taken : ∀ catalog, r.apply catalog remove = q.apply catalog remove
  tables : r.sources.length = q.sources.length
  joins : q.joins.length ≤ r.joins.length

theorem counts_of_sets (sets : e.sets? = some (entry, slot)) :
    (q.apply catalog e).sources.length = q.sources.length ∧ q.joins.length ≤ (q.apply catalog e).joins.length := by
  rw [sources_apply, joins_apply]
  cases e with
  | editTable idx change => exact ⟨List.length_modify _ _ _, Nat.le_refl _⟩
  | editJoin idx change =>
      refine ⟨rfl, ?_⟩
      dsimp only
      rw [edit_join_length]
      split <;> omega
  | setAggregate _ _ | setAlias _ _ | editComputed _ _ | editFilter _ _ | editGroupFilter _ _ | editSort _ _ =>
      exact ⟨rfl, Nat.le_refl _⟩
  | _ => cases sets

theorem adds_table (n : Nat) (adds : q.Adds add (.table n) remove) :
    add = .addTable ∧ n = q.sources.length ∧ remove = .removeTable n := by
  cases adds
  exact ⟨rfl, rfl, rfl⟩

theorem same_without_step (r : Query) (adds : q.Adds add entry remove) (concerns : q.Concerns entry e)
    (same : SameWithout remove (q.apply catalog add) r) : SameWithout remove (q.apply catalog add) (r.apply other e) := by
  have sets : ∃ target slot, e.sets? = some (target, slot) :=
    concerns.elim (fun ⟨slot, sets⟩ => ⟨entry, slot, sets⟩) fun ⟨_, idx, slot, _, sets⟩ => ⟨.join idx, slot, sets⟩
  obtain ⟨target, slot, sets⟩ := sets
  obtain ⟨tables, joins⟩ := r.counts_of_sets other e target slot sets
  refine ⟨fun later => Eq.trans ?_ (same.taken later), tables.trans same.tables, Nat.le_trans same.joins joins⟩
  rcases concerns with ⟨slot, own⟩ | ⟨aligned, idx, slot, rfl, own⟩
  · exact r.set_removed other later e remove entry slot own (q.takes_of_adds add remove entry adds)
  · obtain ⟨change, rfl, -⟩ := e.sets_cases (.join idx) slot own
    obtain ⟨rfl, count, rfl⟩ := q.adds_table add remove (idx + 1) adds
    have inside : idx + 1 < r.sources.length := by
      rw [same.tables, sources_apply, List.length_append, ← count]
      exact Nat.lt_succ_self _
    have filled : idx ≤ r.joins.length := by
      have lines := (Alignment.of_counts_aligned _ _).mp aligned
      rw [← count, Nat.add_sub_cancel] at lines
      exact lines ▸ same.joins
    exact r.edit_join_removed idx change inside filled

/-- An entry that is added and taken away again leaves the query as it was, whatever was set in it before it went.
So does a new table of a query without surplus joins; where the joins line up, its own join may have been made and
edited as well. -/
theorem added_and_withdrawn (steps : List (Catalog × Edit)) (adds : q.Adds add entry remove)
    (concerns : ∀ s ∈ steps, q.Concerns entry s.2) : ((q.apply catalog add).run steps).apply other remove = q := by
  have start : SameWithout remove (q.apply catalog add) (q.apply catalog add) := ⟨fun _ => rfl, rfl, Nat.le_refl _⟩
  have kept := run_keeps (q.apply catalog add) (SameWithout remove (q.apply catalog add)) (fun _ e => q.Concerns entry e)
    (fun later r e concern same => q.same_without_step catalog later e add remove entry r adds concern same)
    steps concerns start
  exact (kept.taken other).trans (q.added_removed catalog other add remove entry adds)

-- The tags are picked and joined, and go with their join; a column may be toggled again under another type.
theorem added_and_withdrawn_example :
    let catalog : Catalog := Roster.empty.put ⟨"t_tags", "tags", []⟩
    let q : Query :=
      { fresh with
        sources := [⟨"t_users", "users", none⟩, ⟨"t_items", "items", none⟩]
        joins := [⟨.left, "users.id", .eq, "items.user_id"⟩] }
    let joined : List Edit :=
      [.editTable 2 (.pick "t_tags"), .editJoin 1 (.left "items.id"), .editTable 2 (.asName "t"),
        .editJoin 1 (.right "t.item_id")]
    let built := (q.apply catalog .addTable).run (joined.map fun e => (catalog, e))
    let ticked :=
      (q.apply catalog (.toggleColumn (.plain "users.id" "integer"))).run [(catalog, .setAlias "users.id" "i")]
    q.Adds .addTable (.table 2) (.removeTable 2) ∧ (∀ e ∈ joined, q.Concerns (.table 2) e) ∧
      built.joins = q.joins ++ [⟨.inner, "items.id", .eq, "t.item_id"⟩] ∧ built.apply catalog (.removeTable 2) = q ∧
      ticked.columns.items = [("users.id", ⟨"users.id", "integer", none, some "i"⟩)] ∧
      ticked.apply catalog (.toggleColumn (.plain "users.id" "text")) = q := by
  intro catalog q joined built ticked
  have table : q.Adds .addTable (.table 2) (.removeTable 2) := .table nofun
  have column : q.Adds (.toggleColumn (.plain "users.id" "integer")) (.column "users.id")
      (.toggleColumn (.plain "users.id" "text")) := .column _ _ rfl nofun
  have steps : ∀ e ∈ joined, q.Concerns (.table 2) e := by
    simp only [joined, List.forall_mem_cons]
    exact ⟨.inl ⟨_, rfl⟩, .inr ⟨rfl, 1, _, rfl, rfl⟩, .inl ⟨_, rfl⟩, .inr ⟨rfl, 1, _, rfl, rfl⟩, nofun⟩
  refine ⟨table, steps, by decide, ?_, by decide, ?_⟩
  · exact q.added_and_withdrawn catalog catalog _ _ _ _ table (List.forall_mem_map.mpr steps)
  · exact q.added_and_withdrawn catalog catalog _ _ _ _ column (List.forall_mem_singleton.mpr (.inl ⟨_, rfl⟩))

end Query
end QueryDraft
