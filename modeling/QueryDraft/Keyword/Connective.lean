import QueryDraft.Json.Codec

/-!
The words that join filters, and the directions of sorting.
-/

set_option autoImplicit false

namespace QueryDraft

inductive Connective where
  | and
  | or
deriving DecidableEq, Repr

namespace Connective

def all : List Connective := [.and, .or]

def text : Connective → String
  | .and => "AND"
  | .or => "OR"

def parse : String → Except UnknownKeyword Connective := Keyword.parse .connective (all.map fun c => (c.text, c))

def codec : Json.Codec Connective := .choice text all

end Connective

inductive Direction where
  | asc
  | desc
deriving DecidableEq, Repr

namespace Direction

def all : List Direction := [.asc, .desc]

def text : Direction → String
  | .asc => "ASC"
  | .desc => "DESC"

def parse : String → Except UnknownKeyword Direction := Keyword.parse .direction (all.map fun d => (d.text, d))

def codec : Json.Codec Direction := .choice text all

end Direction
end QueryDraft
