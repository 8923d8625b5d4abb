import QueryDraft.Json.Codec
import QueryDraft.Roster

/-!
Catalogs: the tables a query may pick, in the order of their listing, each with its columns.
-/

set_option autoImplicit false

namespace QueryDraft

open Json (Codec Fault Field Shape Value)

structure ColumnEntry where
  name : String
  type : String
deriving DecidableEq, Repr

def ColumnEntry.codec : Codec ColumnEntry :=
  Shape.codec
    [ (Field.of "name" .text (·.name) fun name c => { c with name }).needed,
      Field.of "type" .text (·.type) fun type c => { c with type } ]
    ⟨"", ""⟩

structure TableEntry where
  id : String
  name : String
  columns : List ColumnEntry
deriving DecidableEq, Repr

namespace TableEntry

def codec : Codec TableEntry :=
  Shape.codec
    [ (Field.of "id" .text (·.id) fun id t => { t with id }).needed,
      (Field.of "name" .text (·.name) fun name t => { t with name }).needed,
      Field.of "columns" (.list ColumnEntry.codec) (·.columns) fun columns t => { t with columns } ]
    ⟨"", "", []⟩

def column? (t : TableEntry) (name : String) : Option ColumnEntry := t.columns.find? fun c => c.name = name

end TableEntry

abbrev Catalog := Roster TableEntry.id

namespace Catalog

def tables (c : Catalog) : List TableEntry := c.items

def table? (c : Catalog) (id : String) : Option TableEntry := c.get? id

def nameOf (c : Catalog) (id : String) : String := ((c.table? id).map TableEntry.name).getD ""

-- A new table comes last; one with a known id takes the place of the old one.
def insert (c : Catalog) (t : TableEntry) : Catalog := c.put t

def ofEntries (entries : List TableEntry) (limit : Nat) : Catalog := (entries.take limit).foldl insert .empty

end Catalog
end QueryDraft
