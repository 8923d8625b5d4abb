import QueryDraft.Keyword.Aggregate
import QueryDraft.Query.Source

/-!
What a query projects: catalog columns that are selected, and computed columns.
-/

set_option autoImplicit false

namespace QueryDraft

open Json (Codec Field Shape)

structure SelectedColumn where
  name : String
  type : String
  aggregate : Option Aggregate
  asName : Option String
deriving DecidableEq, Repr

namespace SelectedColumn

def plain (name type : String) : SelectedColumn := ⟨name, type, none, none⟩

def withAlias (c : SelectedColumn) (text : String) : SelectedColumn := { c with asName := aliasOf text }

def isAggregated (c : SelectedColumn) : Bool := c.aggregate.isSome

def expression (c : SelectedColumn) : String :=
  match c.aggregate with
  | some a => a.applyTo c.name
  | none => c.name

def codec : Codec SelectedColumn :=
  Shape.codec
    [ Field.of "qualified_name" .text (·.name) fun name c => { c with name },
      Field.of "column_type" .text (·.type) fun type c => { c with type },
      Field.of "aggregation" (.optional Aggregate.codec) (·.aggregate) fun aggregate c => { c with aggregate },
      Field.of "output_alias" (.optional .text) (·.asName) fun asName c => { c with asName } ]
    (plain "" "")

end SelectedColumn

-- An expression of the user's own, always projected under an alias.
structure ComputedColumn where
  expression : String
  asName : String
deriving DecidableEq, Repr

inductive ComputedEdit where
  | expression (text : String)
  | asName (text : String)
deriving DecidableEq, Repr

namespace ComputedColumn

def blank : ComputedColumn := ⟨"", ""⟩

def apply (c : ComputedColumn) : ComputedEdit → ComputedColumn
  | .expression expression => { c with expression }
  | .asName asName => { c with asName }

def codec : Codec ComputedColumn :=
  Shape.codec
    [ Field.of "expression" .text (·.expression) fun expression c => { c with expression },
      Field.of "output_alias" .text (·.asName) fun asName c => { c with asName } ]
    blank

end ComputedColumn
end QueryDraft
