import QueryDraft.Catalog.Listing
import QueryDraft.Query.Candidate
import QueryDraft.Query.Edit
import QueryDraft.Query.Plan
import QueryDraft.Session.Saved

/-!
Sessions: one query, the catalog its tables come from, and the settings it is compiled with. Every
operation gives the events it logs beside its result.
-/

set_option autoImplicit false

namespace QueryDraft

open Json (Codec Field Shape)
open Number (natText)

/-! ## Events -/

inductive Level where
  | debug
  | warn
deriving DecidableEq, Repr

def Level.name : Level → String
  | .debug => "DEBUG"
  | .warn => "WARN"

inductive Event where
  | started
  | reset
  | recompiled (issues sqlBytes : Nat)
  | notCompiled (issues : Nat)
  | nothingToSave
  | joinsOutOfStep (tables joins : Nat) (alignment : Alignment)
deriving DecidableEq, Repr

namespace Event

def level : Event → Level
  | joinsOutOfStep _ _ _ => .warn
  | _ => .debug

def message : Event → String
  | started => "builder session started"
  | reset => "builder session reset"
  | recompiled _ _ => "recompiled query model"
  | notCompiled _ => "query model not compiled: validation failed"
  | nothingToSave => "nothing to save: model does not compile"
  | joinsOutOfStep _ _ _ => "join list out of step with tables"

def fields : Event → List (String × String)
  | recompiled issues sqlBytes => [("issues", natText issues), ("sql_len", natText sqlBytes)]
  | notCompiled issues => [("issues", natText issues)]
  | joinsOutOfStep tables joins alignment =>
    [("tables", natText tables), ("joins", natText joins), ("alignment", alignment.text)]
  | _ => []

end Event

-- The event of an edit that adds or removes a table and leaves the joins out of step.
def Query.alignmentEvents (q : Query) : List Event :=
  if 1 < q.sources.length ∧ !q.alignment.isAligned then
    [.joinsOutOfStep q.sources.length q.joins.length q.alignment]
  else []

def Query.editEvents (before after : Query) : Edit → List Event
  | .addTable => after.alignmentEvents
  | .removeTable idx => if idx < before.sources.length then after.alignmentEvents else []
  | _ => []

/-! ## Previews -/

-- What is shown after an edit; the statement is empty while there are issues.
structure Preview where
  sql : String
  issues : List String
  plan : List PlanRow
deriving DecidableEq, Repr

namespace Preview

def isValid (p : Preview) : Bool := p.issues.isEmpty

def codec : Codec Preview :=
  Shape.codec
    [ Field.of "sql" .text (·.sql) fun sql p => { p with sql },
      Field.of "issues" (.list .text) (·.issues) fun issues p => { p with issues },
      Field.of "plan" (.list PlanRow.codec) (·.plan) fun plan p => { p with plan } ]
    ⟨"", [], []⟩

end Preview

/-! ## Sessions -/

structure Session where
  settings : Settings
  catalog : Catalog
  query : Query
deriving DecidableEq

namespace Session

def start (catalog : Catalog) (settings : Settings) : Session × List Event :=
  (⟨settings, catalog, .fresh⟩, [.started])

def resume (catalog : Catalog) (settings : Settings) (query : Query) : Session × List Event :=
  (⟨settings, catalog, query⟩, [.started])

def edit (s : Session) (e : Edit) : Session × List Event :=
  let query := s.query.apply s.catalog e
  ({ s with query }, s.query.editEvents query e)

def reset (s : Session) : Session × List Event := ({ s with query := .fresh }, [.reset])

def availableTables (s : Session) : List TableEntry := s.catalog.tables.take s.settings.catalogLimit

def candidates (s : Session) : List Candidate := s.query.candidates s.catalog

def sortCandidates (s : Session) : List SortKey := s.query.sortCandidates s.catalog

def recompile (s : Session) : Preview × List Event :=
  let issues := s.query.issues
  let sql := if issues.isEmpty then s.query.statement s.settings else ""
  (⟨sql, issues.map Issue.message, s.query.plan⟩, [.recompiled issues.length sql.utf8ByteSize])

def save (s : Session) (id : Identifier) (createdAt : Timestamp) (database : String) (name : Option String) :
    Option SavedQuery × List Event :=
  let failure := match s.query.compile s.settings with
    | .error (.invalid issues) => [Event.notCompiled issues.length]
    | _ => []
  let sql := s.query.statement s.settings
  if sql = "" then (none, failure ++ [.nothingToSave])
  else (some (.create id createdAt database name sql (some s.query)), failure)

end Session
end QueryDraft
