import QueryDraft.Query.Basic
import QueryDraft.Session.Identifier
import QueryDraft.Session.Timestamp
import QueryDraft.Text.Upper

/-!
The record that a query is saved as.
-/

set_option autoImplicit false

namespace QueryDraft

open Json (Codec Field Shape)
open Number (Numeral)

/-- The snapshot lets the query be opened again. -/
structure SavedQuery where
  id : Identifier
  database : String
  name : String
  sql : String
  queryType : String
  isSaved : Bool
  snapshot : Option Query
  createdAt : Timestamp
deriving DecidableEq

namespace SavedQuery

def defaultName (t : Timestamp) : String := "Saved Query " ++ String.ofList (Numeral.ofInt t.millis).text

def nameOf (name : Option String) (t : Timestamp) : String :=
  match (name.map fun s => Text.trim s.toList).getD [] with
  | [] => defaultName t
  | chars => String.ofList chars

def queryTypeOf (sql : String) : String :=
  match Text.words sql.toList with
  | [] => ""
  | word :: _ => String.ofList (Text.upper (word.reverse.dropWhile fun c => c = ';').reverse)

def create (id : Identifier) (createdAt : Timestamp) (database : String) (name : Option String) (sql : String)
    (snapshot : Option Query) : SavedQuery :=
  { id, database, name := nameOf name createdAt, sql, queryType := queryTypeOf sql, isSaved := true, snapshot, createdAt }

def codec : Codec SavedQuery :=
  Shape.codec
    [ (Field.of "id" Identifier.codec (·.id) fun id s => { s with id }).needed,
      (Field.of "database_id" .text (·.database) fun database s => { s with database }).needed,
      (Field.of "name" .text (·.name) fun name s => { s with name }).needed,
      (Field.of "sql" .text (·.sql) fun sql s => { s with sql }).needed,
      (Field.of "query_type" .text (·.queryType) fun queryType s => { s with queryType }).needed,
      (Field.of "is_saved" .flag (·.isSaved) fun isSaved s => { s with isSaved }).needed,
      Field.of "snapshot" (.optional Query.codec) (·.snapshot) fun snapshot s => { s with snapshot },
      (Field.of "created_at" Timestamp.codec (·.createdAt) fun createdAt s => { s with createdAt }).needed ]
    ⟨⟨List.replicate 32 0, rfl⟩, "", "", "", "", false, none, ⟨0, 0, 0⟩⟩

end SavedQuery
end QueryDraft
