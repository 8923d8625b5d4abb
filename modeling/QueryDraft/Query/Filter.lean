import QueryDraft.Keyword.Aggregate
import QueryDraft.Keyword.Comparison
import QueryDraft.Keyword.Connective
import QueryDraft.Query.Operand

/-!
Filters on rows and filters on groups. Both may be unfinished; an unfinished one is not rendered.
-/

set_option autoImplicit false

namespace QueryDraft

open Json (Codec Field Shape)

structure Filter where
  subject : String
  operator : FilterOp
  operand : Operand
  connective : Connective
deriving DecidableEq

inductive FilterEdit where
  | subject (text : String)
  | operator (operator : FilterOp)
  | operand (operand : Operand)
  | connective (connective : Connective)
deriving DecidableEq

namespace Filter

def blank : Filter := ⟨"", .compare .eq, .text "", .and⟩

def hasSubject (f : Filter) : Bool := f.subject ≠ ""

def isRenderable (f : Filter) : Bool := f.hasSubject && (f.operand.isSet || f.operator.isNullary)

def apply (f : Filter) : FilterEdit → Filter
  | .subject subject => { f with subject }
  | .operator operator => { f with operator }
  | .operand operand => { f with operand }
  | .connective connective => { f with connective }

def codec : Codec Filter :=
  Shape.codec
    [ Field.of "subject" .text (·.subject) fun subject f => { f with subject },
      Field.of "operator" FilterOp.codec (·.operator) fun operator f => { f with operator },
      Field.of "value" Operand.codec (·.operand) fun operand f => { f with operand },
      Field.of "logic" Connective.codec (·.connective) fun connective f => { f with connective } ]
    blank

end Filter

-- The bound is written as it stands, so that numbers need no quoting.
structure GroupFilter where
  aggregate : Aggregate
  column : String
  operator : Comparison
  bound : String
  connective : Connective
deriving DecidableEq, Repr

inductive GroupFilterEdit where
  | aggregate (aggregate : Aggregate)
  | column (name : String)
  | operator (operator : Comparison)
  | bound (text : String)
  | connective (connective : Connective)
deriving DecidableEq, Repr

namespace GroupFilter

def blank : GroupFilter := ⟨.count, "", .gt, "", .and⟩

def hasSubject (f : GroupFilter) : Bool := f.column ≠ ""

def isRenderable (f : GroupFilter) : Bool := f.hasSubject && f.bound ≠ ""

def apply (f : GroupFilter) : GroupFilterEdit → GroupFilter
  | .aggregate aggregate => { f with aggregate }
  | .column column => { f with column }
  | .operator operator => { f with operator }
  | .bound bound => { f with bound }
  | .connective connective => { f with connective }

def codec : Codec GroupFilter :=
  Shape.codec
    [ Field.of "aggregation" Aggregate.codec (·.aggregate) fun aggregate f => { f with aggregate },
      Field.of "column" .text (·.column) fun column f => { f with column },
      Field.of "operator" Comparison.codec (·.operator) fun operator f => { f with operator },
      Field.of "value" .text (·.bound) fun bound f => { f with bound },
      Field.of "logic" Connective.codec (·.connective) fun connective f => { f with connective } ]
    blank

end GroupFilter
end QueryDraft
