import Mathlib.Data.List.Perm.Subperm
import QueryDraft.Proofs.CodecLaws
import QueryDraft.Session.Basic

/-!
Catalogs as histories of insertions. Of all tables inserted under an id the last one is listed, at the place
of the first; a listing is such a history, cut at a limit.
-/

set_option autoImplicit false

namespace QueryDraft

open Json

/-! ## One more insertion -/

namespace Catalog

def inserted (history : List TableEntry) : Catalog := history.foldl insert .empty

def ids (tables : List TableEntry) : List String := tables.map TableEntry.id

-- No later table of the history has the same id.
def LastUnder (history : List TableEntry) (t : TableEntry) : Prop :=
  ∃ before after, history = before ++ t :: after ∧ t.id ∉ ids after

-- Every id stands once, at the place of its first table and with its last one.
structure Lists (history : List TableEntry) (c : Catalog) : Prop where
  once : (ids c.tables).Nodup
  order : ids c.tables = (ids history).eraseDups
  last : ∀ t ∈ c.tables, LastUnder history t
  found : ∀ id t, c.table? id = some t ↔ t ∈ c.tables ∧ t.id = id

theorem erase_dups_concat (names : List String) (name : String) :
    (names ++ [name]).eraseDups = if name ∈ names then names.eraseDups else names.eraseDups ++ [name] := by
  rw [List.eraseDups_append]
  by_cases old : name ∈ names
  · simp [List.removeAll, old]
  · simp [List.removeAll, old, List.eraseDups_cons]

theorem last_under_concat (history : List TableEntry) (t u : TableEntry) (last : LastUnder history t)
    (other : t.id ≠ u.id) : LastUnder (history ++ [u]) t := by
  obtain ⟨before, after, rfl, absent⟩ := last
  refine ⟨before, after ++ [u], by simp, ?_⟩
  rw [ids, List.map_append, List.map_singleton, List.mem_append, List.mem_singleton, not_or]
  exact ⟨absent, other⟩

theorem lists_insert (history : List TableEntry) (c : Catalog) (t : TableEntry) (lists : Lists history c) :
    Lists (history ++ [t]) (c.insert t) where
  once := (c.insert t).distinct
  order := by
    have before : c.keys = (ids history).eraseDups := lists.order
    have after : ids (c.insert t).tables = if t.id ∈ c.keys then c.keys else c.keys ++ [t.id] := Roster.keys_put c t
    have grown : ids (history ++ [t]) = ids history ++ [t.id] := List.map_append
    rw [after, before, grown, erase_dups_concat]
    simp only [List.mem_eraseDups]
  last := by
    intro u member
    rcases (Roster.mem_put c t u).mp member with rfl | ⟨old, other⟩
    · exact ⟨history, [], rfl, nofun⟩
    · exact last_under_concat history u t (lists.last u old) other
  found := (c.insert t).get_eq_some

-- The history that has led to the catalog grows by each insertion.
theorem lists_insertions (history later : List TableEntry) (c : Catalog) (lists : Lists history c) :
    Lists (history ++ later) (later.foldl insert c) := by
  induction later generalizing history c with
  | nil =>
      rw [List.append_nil]
      exact lists
  | cons t rest ih =>
      have grown := ih (history ++ [t]) (c.insert t) (lists_insert history c t lists)
      rwa [List.append_assoc, List.singleton_append] at grown

theorem lists_inserted (history : List TableEntry) : Lists history (inserted history) := by
  refine lists_insertions [] history .empty ⟨List.nodup_nil, rfl, nofun, fun id t => ?_⟩
  exact Roster.get_eq_some .empty id t

/-! ## Listings -/

theorem keys_inserted (history : List TableEntry) : (inserted history).keys = (ids history).eraseDups :=
  (lists_inserted history).order

theorem keys_inserted_prefix (history later : List TableEntry) :
    (inserted history).keys <+: (inserted (history ++ later)).keys := by
  rw [keys_inserted, keys_inserted, ids, ids, List.map_append, List.eraseDups_append]
  exact List.prefix_append _ _

theorem inserted_length (history : List TableEntry) : (inserted history).tables.length ≤ history.length := by
  have lists := lists_inserted history
  have known : ids (inserted history).tables ⊆ ids history := by
    intro id member
    rw [lists.order] at member
    exact List.mem_eraseDups.mp member
  have shorter := (List.Nodup.subperm lists.once known).length_le
  rwa [ids, ids, List.length_map, List.length_map] at shorter

theorem load_of_entries (listing : String) (written : List TableEntry) (sound : entries listing = .ok written)
    (limit : Nat) : load listing limit = .ok (inserted (written.take limit)) := by
  rw [load, sound]
  rfl

end Catalog

/-! ## Written listings -/

namespace Json

-- A tree that a listing may hold: nothing in it is broken, members of one name do not repeat, and it is not too deep.
structure Value.Plain (v : Value) (deep : Nat) : Prop where
  sound : v.sound = true
  settled : v.settle = v
  shallow : v.depth ≤ deep

theorem plain_string (s : String) (deep : Nat) : (Value.string s).Plain deep := ⟨rfl, rfl, Nat.zero_le deep⟩

theorem plain_list (items : List Value) (deep : Nat) (each : ∀ v ∈ items, v.Plain deep) :
    (Value.list items).Plain (deep + 1) := by
  have parts : Value.sound.checkItems items = true ∧ settleItems items = items ∧ depthItems items ≤ deep := by
    induction items with
    | nil => exact ⟨rfl, rfl, Nat.zero_le deep⟩
    | cons v rest ih =>
        obtain ⟨first, others⟩ := List.forall_mem_cons.mp each
        obtain ⟨sound, settled, shallow⟩ := ih others
        refine ⟨?_, ?_, Nat.max_le.mpr ⟨first.shallow, shallow⟩⟩
        · rw [Value.sound.checkItems, sound, Bool.and_true]
          exact first.sound
        · rw [settleItems, first.settled, settled]
  obtain ⟨sound, settled, shallow⟩ := parts
  refine ⟨?_, ?_, Nat.succ_le_succ shallow⟩
  · simpa [Value.list, Value.sound, Value.sound.check] using sound
  · rw [Value.list, Value.settle, settled]

theorem last_members_distinct (members : List (String × Value)) (distinct : (members.map Prod.fst).Nodup) :
    lastMembers (members.map fun (k, v) => (some k, v)) = members.map fun (k, v) => (some k, v) := by
  induction members with
  | nil => rfl
  | cons m rest ih =>
      obtain ⟨fresh, others⟩ := List.nodup_cons.mp distinct
      have single : ((rest.map fun (k, v) => (some k, v)).any fun other : Member => other.1 = some m.1) = false := by
        simp only [List.any_eq_false, List.forall_mem_map, decide_eq_true_eq, Option.some.injEq]
        intro other member same
        exact fresh (same ▸ List.mem_map_of_mem member)
      rw [List.map_cons, lastMembers, single, ih others]
      rfl

theorem plain_record (members : List (String × Value)) (deep : Nat) (distinct : (members.map Prod.fst).Nodup)
    (each : ∀ m ∈ members, m.2.Plain deep) : (Value.record members).Plain (deep + 1) := by
  have parts : Value.sound.checkMembers (members.map fun (k, v) => (some k, v)) = true ∧
      settleMembers (members.map fun (k, v) => (some k, v)) = (members.map fun (k, v) => (some k, v)) ∧
      depthMembers (members.map fun (k, v) => (some k, v)) ≤ deep := by
    clear distinct
    induction members with
    | nil => exact ⟨rfl, rfl, Nat.zero_le deep⟩
    | cons m rest ih =>
        obtain ⟨first, others⟩ := List.forall_mem_cons.mp each
        obtain ⟨sound, settled, shallow⟩ := ih others
        refine ⟨?_, ?_, Nat.max_le.mpr ⟨first.shallow, shallow⟩⟩
        · rw [List.map_cons, Value.sound.checkMembers, sound, Bool.and_true]
          exact first.sound
        · rw [List.map_cons, settleMembers, first.settled, settled]
  obtain ⟨sound, settled, shallow⟩ := parts
  refine ⟨?_, ?_, Nat.succ_le_succ shallow⟩
  · simpa [Value.record, Value.sound, Value.sound.check] using sound
  · rw [Value.record, Value.settle, settled, last_members_distinct members distinct]

end Json

theorem column_entry_lossless : ColumnEntry.codec.Lossless := fun _ =>
  Shape.codec_returns _ _ _ _ _
    (.cons (needed_returns _ _ _ (field_lossless _ _ _ _ _ text_lossless))
      (.cons (field_lossless _ _ _ _ _ text_lossless) .nil))
    (by decide) rfl

theorem table_entry_lossless : TableEntry.codec.Lossless := fun _ =>
  Shape.codec_returns _ _ _ _ _
    (.cons (needed_returns _ _ _ (field_lossless _ _ _ _ _ text_lossless))
      (.cons (needed_returns _ _ _ (field_lossless _ _ _ _ _ text_lossless))
      (.cons (field_lossless _ _ _ _ _ (list_lossless _ column_entry_lossless)) .nil)))
    (by decide) rfl

theorem plain_column (c : ColumnEntry) : (ColumnEntry.codec.write c).Plain 1 :=
  plain_record [("name", .string c.name), ("type", .string c.type)] 0 (by simp) (by simp [plain_string])

theorem plain_table (t : TableEntry) : (TableEntry.codec.write t).Plain 3 := by
  let columns := t.columns.map ColumnEntry.codec.write
  have each : (Value.list columns).Plain 2 := plain_list columns 1 (List.forall_mem_map.mpr fun c _ => plain_column c)
  refine plain_record [("id", .string t.id), ("name", .string t.name), ("columns", .list columns)] 2 (by simp) ?_
  simp [plain_string, each]

namespace Catalog

-- What is written of entries is a sound listing of them.
theorem entries_written (tables : List TableEntry) :
    entries ((Codec.list TableEntry.codec).print tables) = .ok tables := by
  have law := list_lossless _ table_entry_lossless tables
  let v := (Codec.list TableEntry.codec).write tables
  have plain : v.Plain 4 := plain_list _ 3 (List.forall_mem_map.mpr fun t _ => plain_table t)
  have shallow : v.depth < nestingLimit := Nat.lt_of_le_of_lt plain.shallow (by decide)
  have scanned : front v.print.toList = (v, some []) := by
    rw [Value.print, String.toList_ofList]
    exact front_read v law.printable
  rw [entries, Codec.print, scanned]
  simp only [plain.sound, plain.settled, shallow, decide_true, Bool.and_true]
  exact law.reads

/-- Any history lists each id once, where it was first inserted, with the table inserted last. A sound listing is the
history of its entries up to the limit, and a session offers as many tables from the front as its settings allow. -/
theorem history_listed (history written : List TableEntry) (listing : String) (sound : entries listing = .ok written)
    (limit larger : Nat) (ordered : limit ≤ larger) (s : Session) :
    Lists history (inserted history) ∧
    (∃ c d, load listing limit = .ok c ∧ load listing larger = .ok d ∧
      c = inserted (written.take limit) ∧ c.tables.length ≤ limit ∧ ids c.tables <+: ids d.tables) ∧
    s.availableTables <+: s.catalog.tables ∧
    s.availableTables.length = min s.settings.catalogLimit s.catalog.tables.length := by
  refine ⟨lists_inserted history, ?_, List.take_prefix _ _, List.length_take⟩
  have loads := load_of_entries listing written sound
  refine ⟨_, _, loads limit, loads larger, rfl, ?_, ?_⟩
  · exact Nat.le_trans (inserted_length _) (List.length_take_le _ _)
  · obtain ⟨later, split⟩ := List.take_prefix_take_left ordered
    rw [← split]
    exact keys_inserted_prefix _ _

theorem history_listed_example :
    let users : TableEntry := ⟨"t1", "users", []⟩
    let orders : TableEntry := ⟨"t1", "orders", [⟨"total", "numeric"⟩]⟩
    let audit : TableEntry := ⟨"t2", "audit", []⟩
    let listing := (Codec.list TableEntry.codec).print [users, orders, audit]
    let s := (Session.start (inserted [users, orders]) .standard).1
    entries listing = .ok [users, orders, audit] ∧ 2 ≤ 3 ∧
    load listing 2 = .ok (inserted [users, orders]) ∧ (inserted [users, orders]).tables = [orders] ∧
    s.availableTables.length = 1 := by
  intro users orders audit listing s
  have sound := entries_written [users, orders, audit]
  obtain ⟨-, ⟨_, -, loaded, -, rfl, -, -⟩, -, offered⟩ := history_listed [] _ listing sound 2 3 (by decide) s
  exact ⟨sound, by decide, loaded, by decide, offered⟩

end Catalog
end QueryDraft
