import QueryDraft.Json.Codec

/-!
Comparison operators, and the wider set of operators that a filter may use.
-/

set_option autoImplicit false

namespace QueryDraft

inductive Comparison where
  | eq
  | ne
  | gt
  | lt
  | ge
  | le
deriving DecidableEq, Repr

namespace Comparison

def all : List Comparison := [.eq, .ne, .gt, .lt, .ge, .le]

def text : Comparison → String
  | .eq => "="
  | .ne => "!="
  | .gt => ">"
  | .lt => "<"
  | .ge => ">="
  | .le => "<="

-- Inequality has a second spelling.
def spellings : List (String × Comparison) := ("<>", .ne) :: all.map fun c => (c.text, c)

def parse : String → Except UnknownKeyword Comparison := Keyword.parse .comparison spellings

def codec : Json.Codec Comparison := .choice text all

end Comparison

inductive FilterOp where
  | compare (c : Comparison)
  | like
  | notLike
  | isIn
  | notIn
  | isNull
  | isNotNull
deriving DecidableEq, Repr

namespace FilterOp

def all : List FilterOp := Comparison.all.map .compare ++ [.like, .notLike, .isIn, .notIn, .isNull, .isNotNull]

def text : FilterOp → String
  | .compare c => c.text
  | .like => "LIKE"
  | .notLike => "NOT LIKE"
  | .isIn => "IN"
  | .notIn => "NOT IN"
  | .isNull => "IS NULL"
  | .isNotNull => "IS NOT NULL"

def isNullary : FilterOp → Bool
  | .isNull | .isNotNull => true
  | _ => false

def isList : FilterOp → Bool
  | .isIn | .notIn => true
  | _ => false

def parse (text : String) : Except UnknownKeyword FilterOp :=
  match Comparison.parse text with
  | .ok c => .ok (.compare c)
  | .error _ => Keyword.parse .filterOp (all.map fun op => (op.text, op)) text

-- Operators are written by their text and read like keywords typed by hand.
def codec : Json.Codec FilterOp where
  write op := .string op.text
  read
    | .text (some s) =>
      match parse s with
      | .ok op => .ok op
      | .error e => .error (.unknown e)
    | _ => .error .malformed

end FilterOp
end QueryDraft
