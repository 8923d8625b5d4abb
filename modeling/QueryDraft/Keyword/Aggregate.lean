import QueryDraft.Json.Codec

/-!
Aggregate functions.
-/

set_option autoImplicit false

namespace QueryDraft

inductive Aggregate where
  | count
  | sum
  | avg
  | min
  | max
  | groupConcat
deriving DecidableEq, Repr

namespace Aggregate

def all : List Aggregate := [.count, .sum, .avg, .min, .max, .groupConcat]

def text : Aggregate → String
  | .count => "COUNT"
  | .sum => "SUM"
  | .avg => "AVG"
  | .min => "MIN"
  | .max => "MAX"
  | .groupConcat => "GROUP_CONCAT"

def description : Aggregate → String
  | .count => "Count rows"
  | .sum => "Sum values"
  | .avg => "Average"
  | .min => "Minimum"
  | .max => "Maximum"
  | .groupConcat => "Concatenate"

def label (a : Aggregate) : String := a.text ++ " - " ++ a.description

def parse : String → Except UnknownKeyword Aggregate := Keyword.parse .aggregation (all.map fun a => (a.text, a))

def applyTo (a : Aggregate) (column : String) : String := a.text ++ "(" ++ column ++ ")"

def codec : Json.Codec Aggregate := .choice text all

end Aggregate
end QueryDraft
