import QueryDraft.Query.Statement

/-!
The plan of a query: what happens in each stage of its evaluation, said of any query, finished or not.
-/

set_option autoImplicit false

namespace QueryDraft

open Json (Codec Field Shape)
open Number (natText)

inductive Stage where
  | source
  | join
  | filter
  | groupBy
  | having
  | select
  | orderBy
  | limit
deriving DecidableEq, Repr

namespace Stage

-- In the order of evaluation.
def all : List Stage := [.source, .join, .filter, .groupBy, .having, .select, .orderBy, .limit]

def name : Stage → String
  | .source => "FROM"
  | .join => "JOIN"
  | .filter => "WHERE"
  | .groupBy => "GROUP BY"
  | .having => "HAVING"
  | .select => "SELECT"
  | .orderBy => "ORDER BY"
  | .limit => "LIMIT"

def codec : Codec Stage := .choice name all

end Stage

structure PlanRow where
  stage : Stage
  enabled : Bool
  summary : String
deriving DecidableEq, Repr

namespace PlanRow

def text (r : PlanRow) : String :=
  (if r.enabled then "[*] " else "[ ] ") ++ r.stage.name ++ ": " ++ r.summary

def codec : Codec PlanRow :=
  Shape.codec
    [ (Field.of "kind" Stage.codec (·.stage) fun stage r => { r with stage }).needed,
      (Field.of "enabled" .flag (·.enabled) fun enabled r => { r with enabled }).needed,
      (Field.of "summary" .text (·.summary) fun summary r => { r with summary }).needed ]
    ⟨.source, false, ""⟩

end PlanRow

def Source.label (s : Source) : String := s.text (if s.name = "" then s.id else s.name)

def counted (n : Nat) (one many : String) : String := natText n ++ " " ++ (if n = 1 then one else many)

namespace Query

def joinLabels : List Join → List Source → List String
  | [], _ => []
  | j :: joins, sources =>
    let target := (sources.head?.map Source.label).getD "?"
    (if j.isComplete then [j.kind.text ++ " " ++ target] else []) ++ joinLabels joins (sources.drop 1)

def summary? (q : Query) : Stage → Option String
  | .source => (q.sources.find? Source.isPicked).map Source.label
  | .join =>
    let labels := joinLabels q.joins (q.sources.drop 1)
    if labels.isEmpty then none else some (counted labels.length "join" "joins" ++ ": " ++ ", ".intercalate labels)
  | .filter =>
    let active := q.filters.countP Filter.hasSubject
    if active = 0 then none else some (counted active "condition" "conditions")
  | .groupBy => if q.grouping.items.isEmpty then none else some (", ".intercalate q.grouping.items)
  | .having =>
    let active := q.groupFilters.countP GroupFilter.hasSubject
    if active = 0 then none else some (counted active "condition" "conditions")
  | .select =>
    let columns := q.columns.items.length
    let computed := q.computed.length
    if columns + computed = 0 then none
    else
      let parts := (if columns = 0 then [] else [counted columns "column" "columns"]) ++
        (if computed = 0 then [] else [counted computed "custom expression" "custom expressions"])
      some ((if q.distinct then "DISTINCT " else "") ++ ", ".intercalate parts)
  | .orderBy =>
    let terms := q.sorting.filterMap fun t => t.key?.map fun k => k.name ++ " " ++ t.direction.text
    if terms.isEmpty then none else some (", ".intercalate terms)
  | .limit =>
    match q.limit, q.offset with
    | some limit, some offset => some (natText limit.toNat ++ " rows from " ++ natText offset.toNat)
    | some limit, none => some (natText limit.toNat ++ " rows")
    | none, some offset => some ("all rows from " ++ natText offset.toNat)
    | none, none => none

end Query

def Stage.idle : Stage → String
  | .source => "No table selected"
  | .join => "No joins"
  | .filter => "No conditions"
  | .groupBy => "No grouping"
  | .having => "No group filters"
  | .select => "No columns selected"
  | .orderBy => "No sorting"
  | .limit => "No limit"

def Query.plan (q : Query) : List PlanRow :=
  Stage.all.map fun stage =>
    match q.summary? stage with
    | some summary => ⟨stage, true, summary⟩
    | none => ⟨stage, false, stage.idle⟩

end QueryDraft
