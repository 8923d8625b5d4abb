import QueryDraft.Query.Basic

/-!
Edits of a query. Every edit is total: one that addresses nothing leaves the query as it is.
-/

set_option autoImplicit false

namespace QueryDraft

namespace Query

def addTable (q : Query) : Query := { q with sources := q.sources ++ [.blank] }

-- Removes a table and, after the first position, the join that attaches it. The joins stay when the first
-- table goes.
def removeTable (q : Query) (idx : Nat) : Query :=
  if idx < q.sources.length then
    { q with
      sources := q.sources.eraseIdx idx
      joins := if idx = 0 then q.joins else q.joins.eraseIdx (idx - 1) }
  else q

def editTable (catalog : Catalog) (q : Query) (idx : Nat) (e : SourceEdit) : Query :=
  { q with sources := q.sources.modify idx fun s => s.apply catalog e }

def addJoin (q : Query) : Query := { q with joins := q.joins ++ [.blank] }

-- Where the table to attach is there and its join is not yet, the joins up to it are made first. Positions are
-- below `2 ^ 64 - 1`, so that the table behind a join has one too.
def editJoin (q : Query) (idx : Nat) (e : JoinEdit) : Query :=
  if idx < q.joins.length ∨ idx + 1 < q.sources.length then
    let joins := q.joins ++ List.replicate (idx + 1 - q.joins.length) .blank
    { q with joins := joins.modify idx fun j => j.apply e }
  else q

def toggleColumn (q : Query) (c : SelectedColumn) : Query :=
  if q.columns.has c.name then { q with columns := q.columns.erase c.name }
  else { q with columns := q.columns.put (c.name, .plain c.name c.type) }

def setAggregate (q : Query) (name : String) (aggregate : Option Aggregate) : Query :=
  { q with columns := q.columns.adjust name (fun (key, c) => (key, { c with aggregate })) fun _ => rfl }

def setAlias (q : Query) (name asName : String) : Query :=
  { q with columns := q.columns.adjust name (fun (key, c) => (key, c.withAlias asName)) fun _ => rfl }

-- The empty name is never grouped by.
def addGrouping (q : Query) (name : String) : Query :=
  if name = "" then q else { q with grouping := q.grouping.put name }

def removeGrouping (q : Query) (name : String) : Query := { q with grouping := q.grouping.erase name }

end Query

inductive Edit where
  | reset
  | addTable
  | removeTable (idx : Nat)
  | editTable (idx : Nat) (e : SourceEdit)
  | addJoin
  | editJoin (idx : Nat) (e : JoinEdit)
  | toggleColumn (c : SelectedColumn)
  | setAggregate (name : String) (aggregate : Option Aggregate)
  | setAlias (name asName : String)
  | addComputed
  | removeComputed (idx : Nat)
  | editComputed (idx : Nat) (e : ComputedEdit)
  | addFilter
  | removeFilter (idx : Nat)
  | editFilter (idx : Nat) (e : FilterEdit)
  | addGrouping (name : String)
  | removeGrouping (name : String)
  | addGroupFilter
  | removeGroupFilter (idx : Nat)
  | editGroupFilter (idx : Nat) (e : GroupFilterEdit)
  | addSort
  | removeSort (idx : Nat)
  | editSort (idx : Nat) (e : SortEdit)
  | setLimit (limit : Option UInt64)
  | setOffset (offset : Option UInt64)
  | setDistinct (distinct : Bool)
deriving DecidableEq

namespace Query

-- Names of tables are resolved in the catalog.
def apply (catalog : Catalog) (q : Query) : Edit → Query
  | .reset => fresh
  | .addTable => q.addTable
  | .removeTable idx => q.removeTable idx
  | .editTable idx e => q.editTable catalog idx e
  | .addJoin => q.addJoin
  | .editJoin idx e => q.editJoin idx e
  | .toggleColumn c => q.toggleColumn c
  | .setAggregate name aggregate => q.setAggregate name aggregate
  | .setAlias name asName => q.setAlias name asName
  | .addComputed => { q with computed := q.computed ++ [.blank] }
  | .removeComputed idx => { q with computed := q.computed.eraseIdx idx }
  | .editComputed idx e => { q with computed := q.computed.modify idx fun c => c.apply e }
  | .addFilter => { q with filters := q.filters ++ [.blank] }
  | .removeFilter idx => { q with filters := q.filters.eraseIdx idx }
  | .editFilter idx e => { q with filters := q.filters.modify idx fun f => f.apply e }
  | .addGrouping name => q.addGrouping name
  | .removeGrouping name => q.removeGrouping name
  | .addGroupFilter => { q with groupFilters := q.groupFilters ++ [.blank] }
  | .removeGroupFilter idx => { q with groupFilters := q.groupFilters.eraseIdx idx }
  | .editGroupFilter idx e => { q with groupFilters := q.groupFilters.modify idx fun f => f.apply e }
  | .addSort => { q with sorting := q.sorting ++ [.blank] }
  | .removeSort idx => { q with sorting := q.sorting.eraseIdx idx }
  | .editSort idx e => { q with sorting := q.sorting.modify idx fun t => t.apply e }
  | .setLimit limit => { q with limit }
  | .setOffset offset => { q with offset }
  | .setDistinct distinct => { q with distinct }

def applyAll (catalog : Catalog) (q : Query) (edits : List Edit) : Query := edits.foldl (apply catalog) q

end Query
end QueryDraft
