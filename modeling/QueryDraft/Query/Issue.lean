import QueryDraft.Query.Basic

/-!
What keeps a query from being compiled. Positions in issues count from 1.
-/

set_option autoImplicit false

namespace QueryDraft

inductive Issue where
  | noTable
  | missingJoins
  | incompleteJoin (join : Nat)
  | emptyProjection
  | ungroupedColumns (columns : List String)
  | emptyExpression (column : Nat)
  | emptyAlias (column : Nat)
  | duplicateAlias (column : Nat) (asName : String)
  | joinWithoutTable (join : Nat)
deriving DecidableEq, Repr

open Number (natText) in
def Issue.message : Issue → String
  | noTable => "Please select at least one table"
  | missingJoins => "Missing JOIN conditions for selected tables"
  | incompleteJoin join => "JOIN " ++ natText join ++ ": Please select both columns"
  | emptyProjection => "Please select at least one column or add a custom expression."
  | ungroupedColumns columns => "Non-aggregated columns in SELECT must be in GROUP BY: " ++ ", ".intercalate columns
  | emptyExpression column => "Custom Expression " ++ natText column ++ ": Expression cannot be empty."
  | emptyAlias column => "Custom Expression " ++ natText column ++ ": Alias cannot be empty."
  | duplicateAlias column asName =>
    "Custom Expression " ++ natText column ++ ": Alias \"" ++ asName ++ "\" is already used."
  | joinWithoutTable join => "JOIN " ++ natText join ++ ": Please select a table"

namespace Query

def tableIssues (q : Query) : List Issue :=
  if q.sources.head?.any Source.isNamed then [] else [.noTable]

def alignmentIssues (q : Query) : List Issue :=
  if 1 < q.sources.length ∧ !q.alignment.isAligned then [.missingJoins] else []

def endpointIssues (position : Nat) : List Join → List Issue
  | [] => []
  | j :: rest =>
    (if j.isComplete then [] else [.incompleteJoin position]) ++ endpointIssues (position + 1) rest

def projectionIssues (q : Query) : List Issue :=
  if q.columns.items.isEmpty && q.computed.isEmpty then [.emptyProjection] else []

def ungrouped (q : Query) : List String :=
  (q.selected.filter fun c => !c.isAggregated && !q.grouping.has c.name).map SelectedColumn.name

-- Only beside an aggregated column does a plain one have to be grouped by.
def groupingIssues (q : Query) : List Issue :=
  let mixed := q.selected.any SelectedColumn.isAggregated && q.selected.any fun c => !c.isAggregated
  if mixed && !q.ungrouped.isEmpty then [.ungroupedColumns q.ungrouped] else []

def computedIssues (position : Nat) : List ComputedColumn → List Issue
  | [] => []
  | c :: rest =>
    (if c.expression = "" then [.emptyExpression position] else []) ++
      (if c.asName = "" then [.emptyAlias position] else []) ++ computedIssues (position + 1) rest

-- Aliases of computed columns that are used before, by a selected column or an earlier computed one.
def aliasIssues (position : Nat) (used : List String) : List ComputedColumn → List Issue
  | [] => []
  | c :: rest =>
    if c.asName = "" then aliasIssues (position + 1) used rest
    else
      (if c.asName ∈ used then [.duplicateAlias position c.asName] else []) ++
        aliasIssues (position + 1) (c.asName :: used) rest

def attachmentIssues (position : Nat) : List Join → List Source → List Issue
  | [], _ => []
  | _ :: rest, [] => .joinWithoutTable position :: attachmentIssues (position + 1) rest []
  | _ :: rest, s :: sources =>
    (if s.isNamed then [] else [.joinWithoutTable position]) ++ attachmentIssues (position + 1) rest sources

def issues (q : Query) : List Issue :=
  q.tableIssues ++ q.alignmentIssues ++ endpointIssues 1 q.joins ++ q.projectionIssues ++ q.groupingIssues ++
    computedIssues 1 q.computed ++ aliasIssues 1 (q.selected.filterMap SelectedColumn.asName) q.computed ++
    attachmentIssues 1 q.joins (q.sources.drop 1)

def isValid (q : Query) : Bool := q.issues.isEmpty

end Query
end QueryDraft
