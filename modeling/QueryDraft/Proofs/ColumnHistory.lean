import Mathlib.Data.List.Dedup
import QueryDraft.Proofs.EmptyOperands

/-!
The columns that a history of edits leaves. Of all toggles of a name two things remain: whether their number is
odd, and where and of what type the last one was. What was set for the name before that toggle is forgotten.
-/

set_option autoImplicit false

namespace QueryDraft

/-! ## What a history says of a column -/

namespace Edit

def toggled? : Edit → Option String
  | .toggleColumn c => some c.name
  | _ => none

def aggregateFor? (name : String) : Edit → Option (Option Aggregate)
  | .setAggregate target aggregate => if target = name then some aggregate else none
  | _ => none

def aliasFor? (name : String) : Edit → Option (Option String)
  | .setAlias target asName => if target = name then some (aliasOf asName) else none
  | _ => none

def toggles (log : List Edit) : List String := log.filterMap toggled?

-- The value that was set last; nothing if none was.
def lastSet {α : Type} (set? : Edit → Option (Option α)) (log : List Edit) : Option α :=
  (log.filterMap set?).getLast?.join

end Edit

open Edit (toggled? aggregateFor? aliasFor? toggles lastSet)

-- The names that occur an odd number of times, each at its last place, which is the one `dedup` keeps.
def oddly (names : List String) : List String := names.dedup.filter fun name => names.count name % 2 = 1

-- The column that the last toggle of a name selects, with what was set for the name since.
def Settled (log : List Edit) (name : String) (column : SelectedColumn) : Prop :=
  ∃ before toggle after, log = before ++ .toggleColumn toggle :: after ∧ toggle.name = name ∧ name ∉ toggles after ∧
    column = ⟨name, toggle.type, lastSet (aggregateFor? name) after, lastSet (aliasFor? name) after⟩

-- The columns are those that the history leaves, in the order of their last toggles.
structure Follows (log : List Edit) (columns : Roster (Prod.fst : KeyedColumn → String)) : Prop where
  keys : columns.keys = oddly (toggles log)
  settled : ∀ entry ∈ columns.items, Settled log entry.1 entry.2

/-! ## One more edit -/

theorem dedup_concat (names : List String) (name : String) :
    (names ++ [name]).dedup = (names.dedup.filter fun other => other ≠ name) ++ [name] := by
  induction names with
  | nil => rfl
  | cons first rest ih =>
      rw [List.cons_append]
      by_cases later : first ∈ rest
      · rw [List.dedup_cons_of_mem (List.mem_append_left _ later), List.dedup_cons_of_mem later, ih]
      · rw [List.dedup_cons_of_notMem later]
        by_cases same : first = name
        · rw [List.dedup_cons_of_mem (by simp [same]), List.filter_cons_of_neg (by simp [same]), ih]
        · rw [List.dedup_cons_of_notMem (by simp [later, same]), List.filter_cons_of_pos (by simp [same]), ih,
            List.cons_append]

theorem mem_oddly (names : List String) (name : String) : name ∈ oddly names ↔ names.count name % 2 = 1 := by
  have present : names.count name % 2 = 1 → name ∈ names := by
    intro odd
    apply List.count_pos_iff.mp
    omega
  simpa [oddly] using present

-- A name that is there goes, any other comes last.
def switched (names : List String) (name : String) : List String :=
  (names.filter fun other => other ≠ name) ++ if name ∈ names then [] else [name]

theorem oddly_concat (names : List String) (name : String) : oddly (names ++ [name]) = switched (oddly names) name := by
  rw [switched, oddly, dedup_concat, List.filter_append, List.filter_filter, oddly, List.filter_filter]
  congr 1
  · refine List.filter_congr fun other _ => ?_
    by_cases same : other = name
    · simp [same]
    · simp [List.count_append, same, Ne.symm same]
  · rw [← oddly, List.filter_singleton, if_congr (mem_oddly names name) rfl rfl, List.count_append,
      List.count_singleton_self]
    by_cases odd : names.count name % 2 = 1
    · have even : ¬ (names.count name + 1) % 2 = 1 := by omega
      simp [odd, even]
    · have next : (names.count name + 1) % 2 = 1 := by omega
      simp [odd, next]

theorem toggles_concat (log : List Edit) (e : Edit) : toggles (log ++ [e]) = toggles log ++ (toggled? e).toList := by
  cases toggled : toggled? e <;> simp [toggles, List.filterMap_append, toggled]

theorem oddly_toggles_concat (log : List Edit) (e : Edit) :
    oddly (toggles (log ++ [e])) = (toggled? e).elim (oddly (toggles log)) (switched (oddly (toggles log))) := by
  rw [toggles_concat]
  cases toggled? e with
  | none => exact congrArg oddly (List.append_nil _)
  | some name => exact oddly_concat _ name

theorem last_set_concat {α : Type} (set? : Edit → Option (Option α)) (log : List Edit) (e : Edit) :
    lastSet set? (log ++ [e]) = (set? e).getD (lastSet set? log) := by
  cases change : set? e <;> simp [lastSet, List.filterMap_append, change]

-- What an edit that does not toggle the name makes of the column under it.
def SelectedColumn.after (c : SelectedColumn) (name : String) (e : Edit) : SelectedColumn :=
  { c with aggregate := (aggregateFor? name e).getD c.aggregate, asName := (aliasFor? name e).getD c.asName }

theorem settled_concat (log : List Edit) (name : String) (column : SelectedColumn) (e : Edit)
    (settled : Settled log name column) (other : toggled? e ≠ some name) :
    Settled (log ++ [e]) name (column.after name e) := by
  obtain ⟨before, toggle, behind, rfl, named, none, rfl⟩ := settled
  refine ⟨before, toggle, behind ++ [e], by simp, named, ?_, ?_⟩
  · rw [toggles_concat, List.mem_append, Option.mem_toList, not_or]
    exact ⟨none, other⟩
  · rw [last_set_concat, last_set_concat]
    rfl

theorem settled_toggle (log : List Edit) (c : SelectedColumn) :
    Settled (log ++ [.toggleColumn c]) c.name (.plain c.name c.type) :=
  ⟨log, c, [], rfl, rfl, nofun, rfl⟩

namespace Query

variable (catalog : Catalog) (q : Query) (e : Edit)

theorem keys_toggle (c : SelectedColumn) : (q.toggleColumn c).columns.keys = switched q.columns.keys c.name := by
  have known := q.columns.has_iff c.name
  rw [toggleColumn, switched]
  by_cases present : c.name ∈ q.columns.keys
  · rw [if_pos (known.mpr present), if_pos present, List.append_nil]
    exact q.columns.keys_erase c.name
  · have untouched : (q.columns.keys.filter fun other => other ≠ c.name) = q.columns.keys := by
      refine List.filter_eq_self.mpr fun other member => decide_eq_true ?_
      rintro rfl
      exact present member
    rw [if_neg (mt known.mp present), if_neg present, untouched]
    dsimp only [Roster.keys]
    rw [Roster.put_fresh _ _ present, List.map_append, List.map_singleton]

theorem mem_toggle (c : SelectedColumn) (entry : KeyedColumn) (member : entry ∈ (q.toggleColumn c).columns.items) :
    entry = (c.name, .plain c.name c.type) ∨ entry ∈ q.columns.items ∧ entry.1 ≠ c.name := by
  have known := q.columns.has_iff c.name
  rw [toggleColumn] at member
  by_cases present : c.name ∈ q.columns.keys
  · rw [if_pos (known.mpr present)] at member
    exact .inr (by simpa using List.mem_filter.mp member)
  · rw [if_neg (mt known.mp present)] at member
    dsimp only at member
    rw [Roster.put_fresh _ _ present, List.mem_append, List.mem_singleton] at member
    rcases member with old | new
    · exact .inr ⟨old, fun same => present (same ▸ List.mem_map_of_mem old)⟩
    · exact .inl new

theorem keys_apply (kept : e ≠ .reset) :
    (q.apply catalog e).columns.keys = (toggled? e).elim q.columns.keys (switched q.columns.keys) := by
  rw [columns_apply]
  cases e with
  | reset => exact absurd rfl kept
  | toggleColumn c => exact q.keys_toggle c
  | setAggregate name aggregate =>
      dsimp only [setAggregate]
      rw [Roster.keys_adjust]
      rfl
  | setAlias name asName =>
      dsimp only [setAlias]
      rw [Roster.keys_adjust]
      rfl
  | _ => rfl

-- A column has just been selected, or was there before and is what the edit makes of it.
theorem mem_columns_after (kept : e ≠ .reset) (entry : KeyedColumn) (member : entry ∈ (q.apply catalog e).columns.items) :
    (∃ c, e = .toggleColumn c ∧ entry = (c.name, .plain c.name c.type)) ∨
      ∃ old ∈ q.columns.items, toggled? e ≠ some old.1 ∧ entry = (old.1, old.2.after old.1 e) := by
  rw [columns_apply] at member
  cases e with
  | reset => exact absurd rfl kept
  | toggleColumn c =>
      rcases q.mem_toggle c entry member with new | ⟨old, other⟩
      · exact .inl ⟨c, rfl, new⟩
      · exact .inr ⟨entry, old, fun same => other (Option.some.inj same).symm, rfl⟩
  | setAggregate name aggregate =>
      obtain ⟨old, known, rfl⟩ := List.mem_map.mp member
      refine .inr ⟨old, known, nofun, ?_⟩
      obtain rfl | other := eq_or_ne old.1 name
      · simp [SelectedColumn.after, aggregateFor?, aliasFor?]
      · simp [SelectedColumn.after, aggregateFor?, aliasFor?, other, other.symm]
  | setAlias name asName =>
      obtain ⟨old, known, rfl⟩ := List.mem_map.mp member
      refine .inr ⟨old, known, nofun, ?_⟩
      obtain rfl | other := eq_or_ne old.1 name
      · simp [SelectedColumn.after, aggregateFor?, aliasFor?, SelectedColumn.withAlias]
      · simp [SelectedColumn.after, aggregateFor?, aliasFor?, other, other.symm]
  | _ => exact .inr ⟨entry, member, nofun, rfl⟩

theorem follows_apply (log : List Edit) (kept : e ≠ .reset) (follows : Follows log q.columns) :
    Follows (log ++ [e]) (q.apply catalog e).columns := by
  constructor
  case keys =>
    rw [keys_apply catalog q e kept, follows.keys, oddly_toggles_concat]
  case settled =>
    intro entry member
    rcases mem_columns_after catalog q e kept entry member with ⟨c, rfl, rfl⟩ | ⟨old, known, other, rfl⟩
    · exact settled_toggle log c
    · exact settled_concat log old.1 old.2 e (follows.settled old known) other

theorem follows_run (log : List Edit) (steps : List (Catalog × Edit)) (kept : ∀ s ∈ steps, s.2 ≠ .reset)
    (follows : Follows log q.columns) : Follows (log ++ steps.map Prod.snd) (q.run steps).columns := by
  induction steps generalizing q log with
  | nil =>
      rw [List.map_nil, List.append_nil]
      exact follows
  | cons first rest ih =>
      obtain ⟨here, behind⟩ := List.forall_mem_cons.mp kept
      have later := ih _ (log ++ [first.2]) behind (follows_apply first.1 q first.2 log here follows)
      rwa [List.append_assoc, List.singleton_append] at later

/-! ## The projection -/

theorem statement_projection (settings : Settings) (valid : q.issues = []) :
    ∃ rest, q.statement settings =
      (if q.distinct then "SELECT DISTINCT " else "SELECT ") ++
        ", ".intercalate (q.columns.items.map (fun entry => entry.2.item) ++ q.computed.map ComputedColumn.item) ++
        "\n" ++ rest := by
  obtain ⟨rest, text⟩ := statement_opens settings q valid
  rw [q.select_clause_of_valid valid, selected, List.map_map] at text
  exact ⟨rest, text⟩

/-- After any run of edits on a query without columns, the columns are those that were toggled an odd number of
times, in the order of their last toggles, each with what was set for it since; setting anything for another name
does nothing, and the statement shows the columns in this order before the computed ones. -/
theorem columns_after_run (settings : Settings) (steps : List (Catalog × Edit)) (unselected : q.columns = .empty)
    (kept : ∀ s ∈ steps, s.2 ≠ .reset) :
    let left := q.run steps
    Follows (steps.map Prod.snd) left.columns ∧
      (∀ catalog, ∀ name ∉ left.columns.keys,
        (∀ aggregate, left.apply catalog (.setAggregate name aggregate) = left) ∧
          ∀ asName, left.apply catalog (.setAlias name asName) = left) ∧
      (left.issues = [] → ∃ rest, left.statement settings =
        (if left.distinct then "SELECT DISTINCT " else "SELECT ") ++
          ", ".intercalate (left.columns.items.map (fun entry => entry.2.item) ++
            left.computed.map ComputedColumn.item) ++ "\n" ++ rest) := by
  intro left
  have start : Follows [] q.columns := by
    rw [unselected]
    exact ⟨rfl, nofun⟩
  refine ⟨q.follows_run [] steps kept start, fun catalog name absent => ⟨fun aggregate => ?_, fun asName => ?_⟩,
    left.statement_projection settings⟩
  · exact congrArg (fun columns => { left with columns }) (left.columns.adjust_absent name _ _ absent)
  · exact congrArg (fun columns => { left with columns }) (left.columns.adjust_absent name _ _ absent)

-- The id is selected again behind the name and has lost its aggregate; the total is gone, and an alias given to it
-- after that is not kept.
theorem columns_after_run_example :
    let users : Query := { fresh with sources := [⟨"t_users", "users", none⟩], computed := [⟨"COUNT(*)", "n"⟩] }
    let edits : List Edit :=
      [.toggleColumn ⟨"u.id", "integer", some .sum, some "i"⟩, .setAggregate "u.id" (some .max),
        .toggleColumn (.plain "u.name" "text"), .toggleColumn (.plain "u.total" "decimal"),
        .toggleColumn (.plain "u.id" "text"), .setAlias "u.name" "who", .toggleColumn (.plain "u.id" "bigint"),
        .setAlias "u.id" "key", .setAlias "u.id" "", .toggleColumn (.plain "u.total" "decimal"), .setAlias "u.total" "t"]
    let left := users.run (edits.map fun e => (.empty, e))
    left.columns.items = [("u.name", ⟨"u.name", "text", none, some "who"⟩), ("u.id", ⟨"u.id", "bigint", none, none⟩)] ∧
      Follows edits left.columns ∧ left.apply .empty (.setAlias "u.total" "t") = left ∧
      ∃ rest, left.statement .standard = "SELECT " ++ "u.name AS \"who\", u.id, COUNT(*) AS \"n\"" ++ "\n" ++ rest := by
  intro users edits left
  obtain ⟨follows, absent, projected⟩ :=
    columns_after_run users .standard (edits.map fun e => (.empty, e)) rfl (by decide)
  refine ⟨by decide, follows, (absent .empty "u.total" (by decide)).2 "t", ?_⟩
  obtain ⟨rest, text⟩ := projected (by decide)
  exact ⟨rest, text.trans (congrArg (fun front => front ++ "\n" ++ rest) (by decide))⟩

end Query
end QueryDraft
