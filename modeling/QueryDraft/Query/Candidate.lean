import QueryDraft.Query.Basic

/-!
What the pickers offer: the columns of the picked tables, the two sides of a join, and sort keys.
-/

set_option autoImplicit false

namespace QueryDraft

structure Candidate where
  tableName : String
  visibleName : String
  position : Nat
  column : ColumnEntry
deriving DecidableEq, Repr

namespace Candidate

def qualifiedName (c : Candidate) : String := c.visibleName ++ "." ++ c.column.name

def ofSource (catalog : Catalog) (position : Nat) (s : Source) : List Candidate :=
  match catalog.table? s.id with
  | none => []
  | some t => t.columns.map fun c => ⟨t.name, s.asName.getD t.name, position, c⟩

-- In the order of the tables, and of the columns within one. Unknown tables offer nothing.
def collect (catalog : Catalog) (position : Nat) : List Source → List Candidate
  | [] => []
  | s :: rest => ofSource catalog position s ++ collect catalog (position + 1) rest

def left (candidates : List Candidate) (position : Nat) : List Candidate :=
  candidates.filter fun c => c.position < position

def right (candidates : List Candidate) (position : Nat) : List Candidate :=
  candidates.filter fun c => c.position = position

def selection (c : Candidate) : SelectedColumn := .plain c.qualifiedName c.column.type

end Candidate

namespace Query

def candidates (catalog : Catalog) (q : Query) : List Candidate := Candidate.collect catalog 0 q.sources

def sortCandidates (catalog : Catalog) (q : Query) : List SortKey :=
  (q.candidates catalog).map (fun c => .column c.qualifiedName) ++
    (q.selected.filterMap SelectedColumn.asName).map .output ++
    ((q.computed.map ComputedColumn.asName).filter fun name => name ≠ "").map .output

end Query
end QueryDraft
