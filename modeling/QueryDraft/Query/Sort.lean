import QueryDraft.Keyword.Connective

/-!
Sort keys and sort terms.
-/

set_option autoImplicit false

namespace QueryDraft

open Json (Codec Fault Field Shape Value)

-- A table column, or the output alias of a projected one.
inductive SortKey where
  | column (name : String)
  | output (name : String)
deriving DecidableEq, Repr

namespace SortKey

def name : SortKey → String
  | .column name | .output name => name

def isEmpty (k : SortKey) : Bool := k.name = ""

def insideQuotes : List Char → Option (List Char)
  | '"' :: rest => if rest.getLast? = some '"' then some rest.dropLast else none
  | _ => none

-- A picker shows aliases in quote marks and columns bare.
def ofPicker (text : String) : SortKey :=
  match insideQuotes text.toList with
  | some name => .output (String.ofList name)
  | none => .column text

def codec : Codec SortKey where
  write
    | .column name => .record [("Column", .string name)]
    | .output name => .record [("Alias", .string name)]
  read
    | .object [(some tag, .text (some name))] true =>
      if tag = "Column" then .ok (.column name)
      else if tag = "Alias" then .ok (.output name)
      else .error .malformed
    | _ => .error .malformed

end SortKey

structure SortTerm where
  reference : Option SortKey
  direction : Direction
deriving DecidableEq, Repr

inductive SortEdit where
  | reference (key : Option SortKey)
  | direction (direction : Direction)
deriving DecidableEq, Repr

namespace SortTerm

def blank : SortTerm := ⟨none, .asc⟩

-- The key, once one that is not empty is chosen.
def key? (t : SortTerm) : Option SortKey := t.reference.filter fun k => !k.isEmpty

def apply (t : SortTerm) : SortEdit → SortTerm
  | .reference reference => { t with reference }
  | .direction direction => { t with direction }

def codec : Codec SortTerm :=
  Shape.codec
    [ Field.of "reference" (.optional SortKey.codec) (·.reference) fun reference t => { t with reference },
      Field.of "direction" Direction.codec (·.direction) fun direction t => { t with direction } ]
    blank

end SortTerm
end QueryDraft
