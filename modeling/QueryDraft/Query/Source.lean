import QueryDraft.Catalog.Basic

/-!
Tables picked into a query. The first one is the driving table of the statement.
-/

set_option autoImplicit false

namespace QueryDraft

open Json (Codec Field Shape)

-- The id is empty while no table is picked; the name is the one the catalog gave.
structure Source where
  id : String
  name : String
  asName : Option String
deriving DecidableEq, Repr

-- An alias is nothing or not empty.
def aliasOf (text : String) : Option String := if text = "" then none else some text

inductive SourceEdit where
  | pick (id : String)
  | rename (name : String)
  | asName (text : String)
deriving DecidableEq, Repr

namespace Source

def blank : Source := ⟨"", "", none⟩

def withAlias (s : Source) (text : String) : Source := { s with asName := aliasOf text }

def isPicked (s : Source) : Bool := s.id ≠ ""

def isNamed (s : Source) : Bool := s.isPicked && s.name ≠ ""

def visibleName (s : Source) : String := s.asName.getD s.name

-- Picking a table resolves its name in the catalog; an empty alias is no alias.
def apply (catalog : Catalog) (s : Source) : SourceEdit → Source
  | .pick id => { s with id, name := catalog.nameOf id }
  | .rename name => { s with name }
  | .asName text => s.withAlias text

def codec : Codec Source :=
  Shape.codec
    [ Field.of "id" .text (·.id) fun id s => { s with id },
      Field.of "name" .text (·.name) fun name s => { s with name },
      Field.of "alias" (.optional .text) (·.asName) fun asName s => { s with asName } ]
    blank

end Source
end QueryDraft
