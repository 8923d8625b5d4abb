import QueryDraft.Json.Codec

/-!
Kinds of join.
-/

set_option autoImplicit false

namespace QueryDraft

inductive JoinKind where
  | inner
  | left
  | right
  | fullOuter
deriving DecidableEq, Repr

namespace JoinKind

def all : List JoinKind := [.inner, .left, .right, .fullOuter]

def text : JoinKind → String
  | .inner => "INNER JOIN"
  | .left => "LEFT JOIN"
  | .right => "RIGHT JOIN"
  | .fullOuter => "FULL OUTER JOIN"

def heads : List (String × JoinKind) :=
  [("INNER", .inner), ("LEFT", .left), ("LEFT OUTER", .left), ("RIGHT", .right), ("RIGHT OUTER", .right),
    ("FULL", .fullOuter), ("FULL OUTER", .fullOuter)]

-- The word JOIN is dropped once from behind a head.
def dropJoin (spelling : String) : String :=
  match " JOIN".toList.isSuffixOf? spelling.toList with
  | some head => String.ofList head
  | none => spelling

def parse (text : String) : Except UnknownKeyword JoinKind :=
  match heads.lookup (dropJoin (Keyword.normalize text)) with
  | some kind => .ok kind
  | none => .error ⟨.joinKind, text⟩

def codec : Json.Codec JoinKind := .choice text all

end JoinKind
end QueryDraft
