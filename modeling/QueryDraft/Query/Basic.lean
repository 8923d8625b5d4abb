import QueryDraft.Query.Column
import QueryDraft.Query.Filter
import QueryDraft.Query.Join
import QueryDraft.Query.Sort

/-!
The query under construction, and its snapshot as text.
-/

set_option autoImplicit false

namespace QueryDraft

open Json (Codec Fault Field Shape Value)

abbrev KeyedColumn := String × SelectedColumn

/-- The join at a position attaches the table at the next position. Columns and grouping names stand in
the order of their selection. -/
structure Query where
  sources : List Source
  joins : List Join
  columns : Roster (Prod.fst : KeyedColumn → String)
  computed : List ComputedColumn
  filters : List Filter
  grouping : Roster (id : String → String)
  groupFilters : List GroupFilter
  sorting : List SortTerm
  limit : Option UInt64
  offset : Option UInt64
  distinct : Bool
deriving DecidableEq

namespace Query

def empty : Query := ⟨[], [], .empty, [], [], .empty, [], [], none, none, false⟩

-- The start of a session: a table not yet picked and a filter not yet filled in.
def fresh : Query := { empty with sources := [.blank], filters := [.blank] }

def selected (q : Query) : List SelectedColumn := q.columns.items.map Prod.snd

def joined? (q : Query) (join : Nat) : Option Source := q.sources[join + 1]?

def alignment (q : Query) : Alignment := .ofCounts q.sources.length q.joins.length

/-! ## Snapshots -/

def readColumns (closed : Bool) : List Json.Member → Roster (Prod.fst : KeyedColumn → String) →
    Except Fault (Roster (Prod.fst : KeyedColumn → String))
  | [], columns => if closed then .ok columns else .error .malformed
  | (none, _) :: _, _ => .error .malformed
  | (some key, v) :: rest, columns => do readColumns closed rest (columns.put (key, ← SelectedColumn.codec.read v))

-- A later member with a known key replaces the column and leaves it in its place.
def columnsCodec : Codec (Roster (Prod.fst : KeyedColumn → String)) where
  write columns := .record (columns.items.map fun (key, c) => (key, SelectedColumn.codec.write c))
  read
    | .object members closed => readColumns closed members .empty
    | _ => .error .malformed

def groupingCodec : Codec (Roster (id : String → String)) where
  write names := (Codec.list .text).write names.items
  read v := do return Roster.ofList (← (Codec.list .text).read v)

-- Missing parts are empty.
def codec : Codec Query :=
  Shape.codec
    [ Field.of "tables" (.list Source.codec) (·.sources) fun sources q => { q with sources },
      Field.of "joins" (.list Join.codec) (·.joins) fun joins q => { q with joins },
      Field.of "columns" columnsCodec (·.columns) fun columns q => { q with columns },
      Field.of "custom_columns" (.list ComputedColumn.codec) (·.computed) fun computed q => { q with computed },
      Field.of "conditions" (.list Filter.codec) (·.filters) fun filters q => { q with filters },
      Field.of "group_by" groupingCodec (·.grouping) fun grouping q => { q with grouping },
      Field.of "having" (.list GroupFilter.codec) (·.groupFilters) fun groupFilters q => { q with groupFilters },
      Field.of "order_by" (.list SortTerm.codec) (·.sorting) fun sorting q => { q with sorting },
      Field.of "limit" (.optional .natural) (·.limit) fun limit q => { q with limit },
      Field.of "offset" (.optional .natural) (·.offset) fun offset q => { q with offset },
      Field.of "distinct" .flag (·.distinct) fun distinct q => { q with distinct } ]
    empty

def snapshot (q : Query) : String := codec.print q

def ofSnapshot (text : String) : Except Fault Query := codec.parse text

end Query
end QueryDraft
