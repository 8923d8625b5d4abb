import QueryDraft.Query.Issue
import QueryDraft.Settings

/-!
The statement a query compiles to: one clause per line, closed by a semicolon.
-/

set_option autoImplicit false

namespace QueryDraft

open Number (natText)
open Text (nameLiteral)

-- Tables count from 0, joins from 1.
inductive CompileError where
  | invalid (issues : List Issue)
  | unresolvedTable (position : Nat)
  | danglingJoin (join : Nat)
  | internal (text : String)
deriving DecidableEq, Repr

def CompileError.message : CompileError → String
  | invalid issues => "query model is invalid: " ++ "; ".intercalate (issues.map Issue.message)
  | unresolvedTable position => "table at position " ++ natText position ++ " has no resolved name"
  | danglingJoin join => "JOIN " ++ natText join ++ " has no table to attach"
  | internal text => "internal compiler failure: " ++ text

/-! ## Items -/

def SelectedColumn.item (c : SelectedColumn) : String :=
  match c.asName with
  | some asName => c.expression ++ " AS " ++ nameLiteral asName
  | none => c.expression

def ComputedColumn.item (c : ComputedColumn) : String := c.expression ++ " AS " ++ nameLiteral c.asName

def Source.text (s : Source) (name : String) : String :=
  match s.asName with
  | some asName => name ++ " AS " ++ asName
  | none => name

def Source.item (s : Source) (position : Nat) : Except CompileError String :=
  if s.name = "" then .error (.unresolvedTable position) else .ok (s.text s.name)

def Join.item (j : Join) (source : String) : String :=
  j.kind.text ++ " " ++ source ++ " ON " ++ j.left ++ " " ++ j.operator.text ++ " " ++ j.right

def Filter.item (f : Filter) : String :=
  let head := f.subject ++ " " ++ f.operator.text
  if f.operator.isNullary then head
  else if f.operator.isList then head ++ " " ++ f.operand.listLiteral
  else head ++ " " ++ f.operand.literal

def GroupFilter.item (f : GroupFilter) : String :=
  f.aggregate.applyTo f.column ++ " " ++ f.operator.text ++ " " ++ f.bound

def SortKey.item : SortKey → String
  | .column name => name
  | .output name => nameLiteral name

def SortTerm.item? (t : SortTerm) : Option String := t.key?.map fun k => k.item ++ " " ++ t.direction.text

/-! ## Clauses -/

-- Items one after another, each but the first behind its connective.
def connect : List (Connective × String) → String
  | [] => ""
  | (_, first) :: rest => first ++ String.join (rest.map fun (c, item) => " " ++ c.text ++ " " ++ item)

def clause? (keyword body : String) : Option String := if body = "" then none else some (keyword ++ " " ++ body)

namespace Query

def selectClause (q : Query) : String :=
  let items := q.selected.map SelectedColumn.item ++ q.computed.map ComputedColumn.item
  let projection := if items.isEmpty then "*" else ", ".intercalate items
  (if q.distinct then "SELECT DISTINCT " else "SELECT ") ++ projection

def fromClause (q : Query) : Except CompileError String :=
  match q.sources with
  | [] => .error (.unresolvedTable 0)
  | s :: _ => do return "FROM " ++ (← s.item 0)

def joinClauses (position : Nat) : List Join → List Source → Except CompileError (List String)
  | [], _ => .ok []
  | _ :: _, [] => .error (.danglingJoin position)
  | j :: joins, s :: sources => do
    let source ← s.item position
    return j.item source :: (← joinClauses (position + 1) joins sources)

def whereBody (filters : List Filter) : String :=
  connect ((filters.filter Filter.isRenderable).map fun f => (f.connective, f.item))

def havingBody (filters : List GroupFilter) : String :=
  connect ((filters.filter GroupFilter.isRenderable).map fun f => (f.connective, f.item))

def groupByClause? (q : Query) : Option String :=
  if q.grouping.items.isEmpty then none else some ("GROUP BY " ++ ", ".intercalate q.grouping.items)

def orderByClause? (terms : List SortTerm) : Option String :=
  let items := terms.filterMap SortTerm.item?
  if items.isEmpty then none else some ("ORDER BY " ++ ", ".intercalate items)

def limitClause? (q : Query) : Option String :=
  q.limit.map fun limit =>
    match q.offset with
    | some offset => "LIMIT " ++ natText limit.toNat ++ " OFFSET " ++ natText offset.toNat
    | none => "LIMIT " ++ natText limit.toNat

-- What goes on with the last line: an OFFSET that has no LIMIT to stand with.
def trailer (settings : Settings) (q : Query) : String :=
  match q.limit, q.offset with
  | none, some offset => if settings.loneOffset then " OFFSET " ++ natText offset.toNat else ""
  | _, _ => ""

def lines (q : Query) : Except CompileError (List String) := do
  let source ← q.fromClause
  let joins ← joinClauses 1 q.joins (q.sources.drop 1)
  let optional := [clause? "WHERE" (whereBody q.filters), q.groupByClause?, clause? "HAVING" (havingBody q.groupFilters),
    orderByClause? q.sorting, q.limitClause?]
  return q.selectClause :: source :: joins ++ optional.filterMap id

def pushLast (lines : List String) (text : String) : List String := lines.modify (lines.length - 1) (· ++ text)

def compile (settings : Settings) (q : Query) : Except CompileError String :=
  if q.isValid then do
    return "\n".intercalate (pushLast (← q.lines) (q.trailer settings)) ++ ";"
  else .error (.invalid q.issues)

def statement (settings : Settings) (q : Query) : String :=
  match q.compile settings with
  | .ok text => text
  | .error _ => ""

end Query
end QueryDraft
